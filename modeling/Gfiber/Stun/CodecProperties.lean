import Mathlib.Data.List.Forall2
import Gfiber.Stun.Codec

/-! What an encoded message is decoded to. -/

set_option autoImplicit false

namespace Gfiber.Stun

open Lib

section Contents

/-- What an attribute holds. -/
inductive Content where
  | bytes (value : List Byte)
  | address (addr : Address) (port : BitVec 16)
deriving DecidableEq, Repr

def portBytes (port : BitVec 16) : List Byte :=
  bigEndian 2 port.toNat

/-- The MAPPED-ADDRESS form. -/
def mappedForm (addr : Address) (port : BitVec 16) : List Byte :=
  [0, BitVec.ofNat 8 addr.family.number] ++ portBytes port ++ addr.bytes

/-- The byte of the mask at a place: of the cookie, and after it of the transaction id. -/
def maskByte (transactionId : List Byte) (place : Nat) : Byte :=
  (bigEndian 4 magicCookie ++ transactionId).getD place 0

/-- The XOR-MAPPED-ADDRESS form: the port is masked with the high half of the cookie, each byte of
the address with the byte of the mask at its place. -/
def xorMappedForm (transactionId : List Byte) (addr : Address) (port : BitVec 16) : List Byte :=
  [0, BitVec.ofNat 8 addr.family.number] ++
    portBytes (port ^^^ BitVec.ofNat 16 (magicCookie / 2 ^ 16)) ++
    addr.bytes.mapIdx fun place byte => byte ^^^ maskByte transactionId place

/-- The type and the bytes of an attribute with the type and the content that it comes back as. -/
inductive Holds (transactionId : List Byte) : Nat × List Byte → Nat × Content → Prop where
  | plain {attrtype : Nat} {value : List Byte} (unmapped : attrtype ≠ attrMappedAddress)
      (unmasked : attrtype &&& attrMask ≠ 0x20) :
      Holds transactionId (attrtype, value) (attrtype, .bytes value)
  | mapped {addr : Address} {port : BitVec 16} :
      Holds transactionId (attrMappedAddress, mappedForm addr port)
        (attrMappedAddress, .address addr port)
  | xorMapped {attrtype : Nat} {addr : Address} {port : BitVec 16}
      (masked : attrtype &&& attrMask = 0x20) :
      Holds transactionId (attrtype, xorMappedForm transactionId addr port)
        (attrMappedAddress, .address addr port)

def Content.decoded {Name : Type} (inetNtop : Address → Name) : Content → Decoded Name
  | .bytes value => .bytes value
  | .address addr port => .address (inetNtop addr) port.toNat

theorem Content.decoded_injective {Name : Type} {inetNtop : Address → Name}
    (injective : Function.Injective inetNtop) :
    Function.Injective (Content.decoded inetNtop) := by
  intro first second same
  cases first with
  | bytes value =>
      cases second with
      | bytes other =>
          cases same
          rfl
      | address => cases same
  | address addr port =>
      cases second with
      | bytes => cases same
      | address other number =>
          obtain ⟨name, ports⟩ := Decoded.address.inj same
          rw [injective name, BitVec.eq_of_toNat_eq ports]

/-- What the attributes are decoded to. -/
def decodedOf {Name : Type} (inetNtop : Address → Name) (contents : List (Nat × Content)) :
    List (Nat × Decoded Name) :=
  contents.map (Prod.map id (Content.decoded inetNtop))

theorem decodedOf_injective {Name : Type} {inetNtop : Address → Name}
    (injective : Function.Injective inetNtop) : Function.Injective (decodedOf inetNtop) :=
  List.map_injective_iff.mpr
    (Function.injective_id.prodMap (Content.decoded_injective injective))

end Contents

section Packing

/-- Numbers that fit their fields come back from their bytes. -/
theorem pack_ok {fmt : List Field} {values : List Nat}
    (range : Struct.InRange fmt (values.map fun value : Nat => Value.int value)) :
    ∃ bytes, pack fmt values = .ok bytes ∧ bytes.length = Struct.calcsize fmt ∧
      Struct.unpack fmt bytes = some (values.map fun value : Nat => Value.int value) := by
  obtain ⟨bytes, packed, size, back⟩ := Struct.split_pack range
  refine ⟨bytes, by rw [pack, packed], size, ?_⟩
  rw [Struct.unpack, if_pos size, back]

theorem inRange_two {value : Nat} (small : value < 2 ^ 16) :
    (Field.unsigned 2).InRange (.int value) :=
  ⟨Int.natCast_nonneg value, by exact_mod_cast small⟩

theorem pack_pair {first second : Nat} (left : first < 2 ^ 16) (right : second < 2 ^ 16) :
    ∃ bytes, pack [.unsigned 2, .unsigned 2] [first, second] = .ok bytes ∧ bytes.length = 4 ∧
      unpackPair bytes = .ok (first, second) := by
  have range : Struct.InRange [.unsigned 2, .unsigned 2]
      ([first, second].map fun value : Nat => Value.int value) :=
    .cons (inRange_two left) (.cons (inRange_two right) .nil)
  obtain ⟨bytes, packed, size, back⟩ := pack_ok range
  refine ⟨bytes, packed, size, ?_⟩
  rw [unpackPair, back]
  rfl

theorem unpackPair_bigEndian (first second : BitVec 16) :
    unpackPair (bigEndian 2 first.toNat ++ bigEndian 2 second.toNat) =
      .ok (first.toNat, second.toNat) := by
  have left : ofBigEndian (bigEndian 2 first.toNat) = first.toNat :=
    ofBigEndian_bigEndian first.isLt
  have right : ofBigEndian (bigEndian 2 second.toNat) = second.toNat :=
    ofBigEndian_bigEndian second.isLt
  change Except.ok ((ofBigEndian (bigEndian 2 first.toNat) : Int).toNat,
    (ofBigEndian (bigEndian 2 second.toNat) : Int).toNat) = _
  rw [left, right]
  rfl

theorem align_eq (pkt : List Byte) :
    align pkt = pkt ++ List.replicate ((4 - pkt.length % 4) % 4) 0 := by
  induction pkt using align.induct with
  | case1 pkt unaligned ih =>
      rw [align, if_pos unaligned, ih, List.append_assoc]
      have one_more : (4 - pkt.length % 4) % 4 = (4 - (pkt ++ [0]).length % 4) % 4 + 1 := by
        rw [List.length_append, List.length_singleton]
        omega
      rw [one_more, List.replicate_succ]
      rfl
  | case2 pkt aligned =>
      have zero : (4 - pkt.length % 4) % 4 = 0 := by omega
      rw [align, if_neg aligned, zero]
      exact (List.append_nil pkt).symm

end Packing

section Masking

/-- Masking twice with one key gives back what was masked. -/
theorem xor_xor {s keystr : List Byte} (covered : s.length ≤ keystr.length) :
    xor (xor s keystr) keystr = s := by
  induction s generalizing keystr with
  | nil => rfl
  | cons byte s ih =>
      cases keystr with
      | nil => exact absurd covered (by simp)
      | cons key keystr =>
          have rest := ih (Nat.le_of_succ_le_succ covered)
          change (byte ^^^ key ^^^ key) :: xor (xor s keystr) keystr = byte :: s
          rw [rest, BitVec.xor_assoc, BitVec.xor_self, BitVec.xor_zero]

theorem portBytes_xor (port mask : BitVec 16) :
    portBytes (port ^^^ mask) = xor (portBytes port) (portBytes mask) := by
  have high : (port.toNat ^^^ mask.toNat) / 256 = port.toNat / 256 ^^^ mask.toNat / 256 :=
    Nat.xor_div_two_pow (n := 8)
  simp only [portBytes, bigEndian, BitVec.toNat_xor, high, BitVec.ofNat_xor]
  rfl

end Masking

section Addresses

variable {Name : Type} (inetNtop : Address → Name)

theorem named_bytes (addr : Address) :
    named inetNtop addr.family addr.bytes = .ok (inetNtop addr) := by
  rw [named, dif_pos addr.sized]

/-- The MAPPED-ADDRESS form is read as the address and the port that it holds. -/
theorem decodeAddress_mapped (addr : Address) (port : BitVec 16) :
    decodeAddress inetNtop (mappedForm addr port) = .ok (inetNtop addr, port.toNat) := by
  have front : [0, BitVec.ofNat 8 addr.family.number] =
      bigEndian 2 (BitVec.ofNat 16 addr.family.number).toNat := by
    cases addr.family with
    | ipv4 => rfl
    | ipv6 => rfl
  have head : (mappedForm addr port).take 4 =
      bigEndian 2 (BitVec.ofNat 16 addr.family.number).toNat ++ bigEndian 2 port.toNat := by
    rw [mappedForm, front]
    rfl
  have rest : (mappedForm addr port).drop 4 = addr.bytes := rfl
  rw [decodeAddress, head, rest, unpackPair_bigEndian]
  have found := named_bytes inetNtop addr
  cases family : addr.family with
  | ipv4 =>
      rw [family] at found
      change (named inetNtop .ipv4 addr.bytes >>= fun name => pure (name, port.toNat)) = _
      rw [found]
      rfl
  | ipv6 =>
      rw [family] at found
      change (named inetNtop .ipv6 addr.bytes >>= fun name => pure (name, port.toNat)) = _
      rw [found]
      rfl

theorem size_le (family : Family) : family.size ≤ 16 := by
  cases family with
  | ipv4 => decide
  | ipv6 => decide

/-- What the decoder takes off is that mask. -/
theorem mapIdx_maskByte {transactionId bytes : List Byte}
    (covered : bytes.length ≤ (bigEndian 4 magicCookie ++ transactionId).length) :
    (bytes.mapIdx fun place byte => byte ^^^ maskByte transactionId place) =
      xor bytes (bigEndian 4 magicCookie ++ transactionId) := by
  refine List.ext_getElem ?_ fun place inside _ => ?_
  · rw [List.length_mapIdx, xor, List.length_zipWith, Nat.min_eq_left covered]
  · rw [List.length_mapIdx] at inside
    have within := inside.trans_le covered
    simp [xor, maskByte, List.getD_eq_getElem?_getD, List.getElem?_eq_getElem within]

/-- Both uses of the key take off the mask of the XOR-MAPPED-ADDRESS form. -/
theorem unmask_xorMapped {transactionId : List Byte} (sized : transactionId.length = 12)
    (addr : Address) (port : BitVec 16) :
    unmask (xorMappedForm transactionId addr port) transactionId = mappedForm addr port := by
  have covered : addr.bytes.length ≤ (bigEndian 4 magicCookie ++ transactionId).length := by
    rw [List.length_append, length_bigEndian, sized, addr.sized]
    exact size_le addr.family
  have ports : xor (portBytes (port ^^^ BitVec.ofNat 16 (magicCookie / 2 ^ 16)))
      (bigEndian 4 magicCookie ++ transactionId) = portBytes port := by
    have key : xor (portBytes (port ^^^ BitVec.ofNat 16 (magicCookie / 2 ^ 16)))
        (bigEndian 4 magicCookie ++ transactionId) =
        xor (portBytes (port ^^^ BitVec.ofNat 16 (magicCookie / 2 ^ 16)))
          (portBytes (BitVec.ofNat 16 (magicCookie / 2 ^ 16))) := rfl
    have two_bytes : (portBytes port).length ≤
        (portBytes (BitVec.ofNat 16 (magicCookie / 2 ^ 16))).length := Nat.le_refl 2
    rw [key, portBytes_xor, xor_xor two_bytes]
  have addresses := xor_xor covered
  calc unmask (xorMappedForm transactionId addr port) transactionId
      = [0, BitVec.ofNat 8 addr.family.number] ++
          xor (portBytes (port ^^^ BitVec.ofNat 16 (magicCookie / 2 ^ 16)))
            (bigEndian 4 magicCookie ++ transactionId) ++
          xor (xor addr.bytes (bigEndian 4 magicCookie ++ transactionId))
            (bigEndian 4 magicCookie ++ transactionId) := by
        rw [xorMappedForm, mapIdx_maskByte covered]
        rfl
    _ = mappedForm addr port := by rw [ports, addresses, mappedForm]

/-- An attribute comes back with the content that it holds. -/
theorem decodeAttr_holds {transactionId : List Byte} (sized : transactionId.length = 12)
    {attr : Nat × List Byte} {content : Nat × Content} (holds : Holds transactionId attr content) :
    decodeAttr inetNtop transactionId attr.1 attr.2 =
      .ok (Prod.map id (Content.decoded inetNtop) content) := by
  cases holds with
  | plain unmapped unmasked =>
      rw [decodeAttr]
      rw [if_neg (show ¬_ &&& attrMask = attrXorMappedAddress &&& attrMask from unmasked),
        if_neg unmapped]
      rfl
  | mapped =>
      have unmasked : ¬attrMappedAddress &&& attrMask = attrXorMappedAddress &&& attrMask := by
        decide
      rw [decodeAttr]
      rw [if_neg unmasked, if_pos rfl, decodeAddress_mapped]
      rfl
  | xorMapped masked =>
      rw [decodeAttr]
      rw [if_pos (show _ &&& attrMask = attrXorMappedAddress &&& attrMask from masked),
        unmask_xorMapped sized, decodeAddress_mapped]
      rfl

end Addresses

section Attributes

variable {Name : Type} (inetNtop : Address → Name)

/-- The length of an attribute with its header and its padding. -/
def attrLength (attr : Nat × List Byte) : Nat :=
  4 + attr.2.length + (4 - attr.2.length % 4) % 4

def encodedLength (attrs : List (Nat × List Byte)) : Nat :=
  (attrs.map attrLength).sum

theorem encodeAttr_ok {attrtype : Nat} {value : List Byte} (typed : attrtype < 2 ^ 16)
    (short : value.length < 2 ^ 16) :
    ∃ header, encodeAttr attrtype value =
        .ok (header ++ value ++ List.replicate ((4 - value.length % 4) % 4) 0) ∧
      header.length = 4 ∧ unpackPair header = .ok (attrtype, value.length) := by
  obtain ⟨header, packed, size, back⟩ := pack_pair typed short
  refine ⟨header, ?_, size, back⟩
  have padding : (4 - (header ++ value).length % 4) % 4 = (4 - value.length % 4) % 4 := by
    rw [List.length_append, size]
    omega
  rw [encodeAttr, packed]
  change Except.ok (align (header ++ value)) = _
  rw [align_eq, padding]

/-- The first attribute of a text is decoded, then what follows its padding. -/
theorem decodeAttrs_attr {transactionId header value rest : List Byte} {attrtype : Nat}
    (size : header.length = 4) (back : unpackPair header = .ok (attrtype, value.length)) :
    decodeAttrs inetNtop transactionId
        (header ++ value ++ List.replicate ((4 - value.length % 4) % 4) 0 ++ rest) = do
      let attr ← decodeAttr inetNtop transactionId attrtype value
      let attrs ← decodeAttrs inetNtop transactionId rest
      return attr :: attrs := by
  have read : (header ++ value ++ List.replicate ((4 - value.length % 4) % 4) (0 : Byte) ++ rest).take
      4 = header := by
    rw [List.append_assoc, List.append_assoc, List.take_left' size]
  have body : ((header ++ value ++ List.replicate ((4 - value.length % 4) % 4) (0 : Byte) ++
      rest).drop 4).take value.length = value := by
    rw [List.append_assoc, List.append_assoc, List.drop_left' size, List.take_left' rfl]
  have after : (header ++ value ++ List.replicate ((4 - value.length % 4) % 4) (0 : Byte) ++
      rest).drop (4 + (value.length + (4 - value.length % 4) % 4)) = rest := by
    apply List.drop_left'
    rw [List.length_append, List.length_append, List.length_replicate, size, Nat.add_assoc]
  rw [decodeAttrs.eq_def]
  cases header with
  | nil => cases size
  | cons first others =>
      simp only [List.cons_append] at read body after ⊢
      rw [read, back]
      change (decodeAttr inetNtop transactionId attrtype _ >>= fun attr =>
        decodeAttrs inetNtop transactionId _ >>= fun attrs => pure (attr :: attrs)) = _
      rw [body, after]

/-- Attributes that fit a message are encoded, and come back with what they hold. -/
theorem decodeAttrs_encodeAttrs {transactionId : List Byte} (sized : transactionId.length = 12)
    {attrs : List (Nat × List Byte)} {contents : List (Nat × Content)}
    (holds : List.Forall₂ (Holds transactionId) attrs contents)
    (typed : ∀ attr ∈ attrs, attr.1 < 2 ^ 16) (short : encodedLength attrs < 2 ^ 16) :
    ∃ text, encodeAttrs attrs = .ok text ∧ text.length = encodedLength attrs ∧
      decodeAttrs inetNtop transactionId text = .ok (decodedOf inetNtop contents) := by
  induction holds with
  | nil =>
      refine ⟨[], rfl, rfl, ?_⟩
      rw [decodeAttrs.eq_def]
      rfl
  | @cons attr content attrs contents first _ ih =>
      have total : encodedLength (attr :: attrs) = attrLength attr + encodedLength attrs := rfl
      have own : attrLength attr = 4 + attr.2.length + (4 - attr.2.length % 4) % 4 := rfl
      obtain ⟨rest, others, length, decoded⟩ :=
        ih (fun other member => typed other (List.mem_cons_of_mem _ member)) (by omega)
      obtain ⟨header, encoded, size, back⟩ :=
        encodeAttr_ok (typed attr List.mem_cons_self) (show attr.2.length < 2 ^ 16 by omega)
      refine ⟨_, by rw [encodeAttrs, encoded, others]; rfl, ?_, ?_⟩
      · simp only [List.length_append, List.length_replicate, size, length]
        omega
      · rw [decodeAttrs_attr inetNtop size back, decodeAttr_holds inetNtop sized first, decoded]
        rfl

end Attributes

section Messages

variable {Name : Type} {inetNtop : Address → Name}

theorem header_range {msgtype length : Nat} (small : msgtype < 2 ^ 16) (short : length < 2 ^ 16) :
    Struct.InRange [.unsigned 2, .unsigned 2, .unsigned 4]
      ([msgtype, length, magicCookie].map fun value : Nat => Value.int value) := by
  have cookie : (Field.unsigned 4).InRange (.int magicCookie) := by
    refine ⟨Int.natCast_nonneg _, ?_⟩
    rw [magicCookie]
    norm_num
  exact .cons (inRange_two small) (.cons (inRange_two short) (.cons cookie .nil))

/-- What a message is encoded to. -/
theorem encode_eq {msgtype : Nat} {transactionId header attrtext : List Byte}
    {attrs : List (Nat × List Byte)} (sized : transactionId.length = 12)
    (encoded : encodeAttrs attrs = .ok attrtext)
    (packed : pack [.unsigned 2, .unsigned 2, .unsigned 4]
      [msgtype, attrtext.length, magicCookie] = .ok header) :
    encode msgtype transactionId attrs = .ok (header ++ transactionId ++ attrtext) := by
  have whole : ¬transactionId.length ≠ 12 := not_not_intro sized
  rw [encode, if_neg whole, encoded, ok_bind, packed, ok_bind]
  rfl

theorem decode_eq {msgtype : Nat} {transactionId header attrtext : List Byte}
    {decoded : List (Nat × Decoded Name)} (sized : transactionId.length = 12)
    (size : header.length = 8)
    (back : Struct.unpack [.unsigned 2, .unsigned 2, .unsigned 4] header =
      some ([msgtype, attrtext.length, magicCookie].map fun value : Nat => Value.int value))
    (attributes : decodeAttrs inetNtop transactionId attrtext = .ok decoded) :
    decode inetNtop (header ++ transactionId ++ attrtext) =
      .ok (msgtype, transactionId, decoded) := by
  have front : (header ++ transactionId ++ attrtext).take 8 = header := by
    rw [List.append_assoc, List.take_left' size]
  have middle : ((header ++ transactionId ++ attrtext).drop 8).take 12 = transactionId := by
    rw [List.append_assoc, List.drop_left' size, List.take_left' sized]
  have rest : (header ++ transactionId ++ attrtext).drop 20 = attrtext := by
    apply List.drop_left'
    rw [List.length_append, size, sized]
  have enough : ¬(header ++ transactionId ++ attrtext).length < 20 := by
    rw [List.length_append, List.length_append, size, sized]
    omega
  rw [decode, if_neg enough, front, middle, rest, back]
  dsimp only [List.map]
  simp only [Int.toNat_natCast, ne_eq, not_true_eq_false, if_false, attributes]
  rfl

/-- A message is decoded to the type, the transaction id and the contents of the attributes that
it has been encoded from, and no other contents are decoded like these. -/
theorem decode_encode (injective : Function.Injective inetNtop) {msgtype : Nat}
    (small : msgtype < 2 ^ 16) {transactionId : List Byte} (sized : transactionId.length = 12)
    {attrs : List (Nat × List Byte)} (typed : ∀ attr ∈ attrs, attr.1 < 2 ^ 16)
    (short : encodedLength attrs < 2 ^ 16) {contents : List (Nat × Content)}
    (holds : List.Forall₂ (Holds transactionId) attrs contents) :
    ∃ packet, encode msgtype transactionId attrs = .ok packet ∧
      decode inetNtop packet = .ok (msgtype, transactionId, decodedOf inetNtop contents) ∧
      ∀ others, decodedOf inetNtop others = decodedOf inetNtop contents → others = contents := by
  obtain ⟨attrtext, encoded, length, decoded⟩ :=
    decodeAttrs_encodeAttrs inetNtop sized holds typed short
  rw [← length] at short
  obtain ⟨header, packed, size, back⟩ := pack_ok (header_range small short)
  exact ⟨_, encode_eq sized encoded packed, decode_eq sized size back decoded,
    fun others same => decodedOf_injective injective same⟩

/-- Dotted decimals for IPv4. The names of IPv6 addresses only have to differ. -/
def exampleNtop (addr : Address) : List Char :=
  match addr.family with
  | .ipv4 => ['.'].intercalate (addr.bytes.map fun byte => Nat.toDigits 10 byte.toNat)
  | .ipv6 => ':' :: addr.bytes.map fun byte => Char.ofNat byte.toNat

theorem toDigits_byte_injective :
    Function.Injective fun byte : Byte => Nat.toDigits 10 byte.toNat := by
  intro first second same
  apply BitVec.eq_of_toNat_eq
  calc first.toNat = Nat.ofDigitChars 10 (Nat.toDigits 10 first.toNat) 0 :=
        Nat.ofDigitChars_ten_toDigits.symm
    _ = Nat.ofDigitChars 10 (Nat.toDigits 10 second.toNat) 0 :=
        congrArg (fun digits => Nat.ofDigitChars 10 digits 0) same
    _ = second.toNat := Nat.ofDigitChars_ten_toDigits

theorem split_dotted {bytes : List Byte} (some_byte : bytes ≠ []) :
    (['.'].intercalate (bytes.map fun byte => Nat.toDigits 10 byte.toNat)).splitOn '.' =
      bytes.map fun byte => Nat.toDigits 10 byte.toNat := by
  apply List.splitOn_intercalate
  · intro digits listed dot
    obtain ⟨byte, _, rfl⟩ := List.mem_map.mp listed
    exact absurd (Nat.isDigit_of_mem_toDigits (by decide) (by decide) dot) (by decide)
  · simpa using some_byte

theorem dotted_ne_colon {bytes : List Byte} (sized : bytes.length = 4) (names : List Char) :
    ['.'].intercalate (bytes.map fun byte => Nat.toDigits 10 byte.toNat) ≠ ':' :: names := by
  match bytes, sized with
  | [first, second, third, fourth], _ =>
      intro same
      have shape : ['.'].intercalate ([first, second, third, fourth].map fun byte =>
          Nat.toDigits 10 byte.toNat) = Nat.toDigits 10 first.toNat ++
            ['.'] ++ (Nat.toDigits 10 second.toNat ++ (['.'] ++ (Nat.toDigits 10 third.toNat ++
              (['.'] ++ Nat.toDigits 10 fourth.toNat)))) := by
        simp [List.intercalate]
      rw [shape] at same
      have digits : ∀ char ∈ Nat.toDigits 10 first.toNat, char.isDigit = true :=
        fun char member => Nat.isDigit_of_mem_toDigits (by decide) (by decide) member
      cases printed : Nat.toDigits 10 first.toNat with
      | nil => exact Nat.toDigits_ne_nil printed
      | cons char rest =>
          rw [printed] at same digits
          cases (List.cons.inj same).1
          exact absurd (digits _ List.mem_cons_self) (by decide)

theorem exampleNtop_injective : Function.Injective exampleNtop := by
  intro first second same
  cases first with
  | mk family bytes sized =>
      cases second with
      | mk other others known =>
          cases family with
          | ipv4 =>
              cases other with
              | ipv4 =>
                  have split := congrArg (List.splitOn '.') same
                  have some_byte : bytes ≠ [] := List.ne_nil_of_length_eq_add_one sized
                  have some_other : others ≠ [] := List.ne_nil_of_length_eq_add_one known
                  dsimp only [exampleNtop] at split
                  rw [split_dotted some_byte, split_dotted some_other] at split
                  cases List.map_injective_iff.mpr toDigits_byte_injective split
                  rfl
              | ipv6 => exact absurd same (dotted_ne_colon sized _)
          | ipv6 =>
              cases other with
              | ipv4 => exact absurd same.symm (dotted_ne_colon known _)
              | ipv6 =>
                  have back : ∀ byte : Byte,
                      BitVec.ofNat 8 (Char.ofNat byte.toNat).toNat = byte := by
                    decide +kernel
                  have chars : Function.Injective fun byte : Byte => Char.ofNat byte.toNat :=
                    fun one two alike => by
                      rw [← back one, ← back two]
                      exact congrArg (fun char : Char => BitVec.ofNat 8 char.toNat) alike
                  cases List.map_injective_iff.mpr chars (List.cons.inj same).2
                  rfl

def localAddress : Address :=
  ⟨.ipv4, [192, 0, 2, 1], rfl⟩

def exampleId : List Byte :=
  [1, 2, 3, 4, 5, 6, 7, 8, 9, 10, 11, 12]

def exampleAttrs : List (Nat × List Byte) :=
  [(0x8022, [103, 102, 105]), (attrMappedAddress, mappedForm localAddress 3478),
    (0x8020, xorMappedForm exampleId localAddress 3478)]

def exampleContents : List (Nat × Content) :=
  [(0x8022, .bytes [103, 102, 105]), (attrMappedAddress, .address localAddress 3478),
    (attrMappedAddress, .address localAddress 3478)]

theorem decode_encode_answer :
    ∃ packet, encode 0x0101 exampleId exampleAttrs = .ok packet ∧
      decode exampleNtop packet = .ok (0x0101, exampleId,
        [(0x8022, .bytes [103, 102, 105]), (attrMappedAddress, .address "192.0.2.1".toList 3478),
          (attrMappedAddress, .address "192.0.2.1".toList 3478)]) ∧
      ∀ others, decodedOf exampleNtop others = decodedOf exampleNtop exampleContents →
        others = exampleContents := by
  have holds : List.Forall₂ (Holds exampleId) exampleAttrs exampleContents :=
    .cons (.plain (by decide) (by decide)) (.cons .mapped (.cons (.xorMapped (by decide)) .nil))
  have success : 0x0101 < 2 ^ 16 := by decide
  have shown : decodedOf exampleNtop exampleContents =
        [(0x8022, .bytes [103, 102, 105]), (attrMappedAddress, .address "192.0.2.1".toList 3478),
          (attrMappedAddress, .address "192.0.2.1".toList 3478)] := by
    decide +kernel
  obtain ⟨packet, encoded, decoded, one⟩ :=
    decode_encode exampleNtop_injective success rfl (by decide) (by decide) holds
  rw [shown] at decoded
  exact ⟨packet, encoded, decoded, one⟩

end Messages

end Gfiber.Stun
