import Gfiber.Stun.Lookup
import Gfiber.Stun.CodecProperties

/-! Which datagrams are decoded, and what the others raise. -/

set_option autoImplicit false

namespace Gfiber.Stun

open Lib

section Outcomes

/-- A computation that returns exactly under a condition, and otherwise raises something else than
`ParseError`. -/
def Decides {Value : Type} (condition : Prop) : Except Error Value → Prop
  | .ok _ => condition
  | .error error => ¬condition ∧ error.isParseError = false

theorem Decides.bind {Value Result : Type} {condition later : Prop} {source : Except Error Value}
    {next : Value → Except Error Result} (first : Decides condition source)
    (rest : ∀ value, source = .ok value → Decides later (next value)) :
    Decides (condition ∧ later) (source >>= next) := by
  cases source with
  | error error => exact ⟨fun both => first.1 both.1, first.2⟩
  | ok value =>
      have decided := rest value rfl
      rw [ok_bind]
      cases result : next value with
      | error error =>
          rw [result] at decided
          exact ⟨fun both => decided.1 both.2, decided.2⟩
      | ok value =>
          rw [result] at decided
          exact ⟨first, decided⟩

theorem Decides.of_iff {Value : Type} {condition other : Prop} {source : Except Error Value}
    (same : condition ↔ other) (decided : Decides condition source) : Decides other source := by
  rwa [← propext same]

/-- What follows a computation without raising keeps the condition. -/
theorem Decides.andReturn {Value Result : Type} {condition : Prop} {source : Except Error Value}
    (next : Value → Result) (decided : Decides condition source) :
    Decides condition (source >>= fun value => .ok (next value)) := by
  have returned : ∀ value, source = .ok value → Decides True (Except.ok (next value)) :=
    fun _ _ => trivial
  exact (decided.bind returned).of_iff (by simp)

end Outcomes

section Addresses

variable {Name : Type} (inetNtop : Address → Name)

/-- The bytes of an address: the family, the port and an address of that family. -/
def AddressValue (value : List Byte) : Prop :=
  ∃ family : Family, ofBigEndian (value.take 2) = family.number ∧ value.length = 4 + family.size

/-- The key is as long as the longest address, and cuts what is longer. -/
def MaskedAddressValue (value : List Byte) : Prop :=
  ∃ family : Family, ofBigEndian (value.take 2) = family.number ∧
    min value.length 20 = 4 + family.size

/-- An attribute that can be decoded. -/
def ReadableAttr (attrtype : Nat) (value : List Byte) : Prop :=
  if attrtype &&& attrMask = attrXorMappedAddress then MaskedAddressValue value
  else attrtype = attrMappedAddress → AddressValue value

theorem unpackPair_eq (bytes : List Byte) :
    unpackPair bytes =
      if bytes.length = 4 then
        .ok (ofBigEndian (bytes.take 2), ofBigEndian ((bytes.drop 2).take 2))
      else .error .struct := by
  rw [unpackPair, Struct.unpack]
  have size : Struct.calcsize [.unsigned 2, .unsigned 2] = 4 := rfl
  rw [size]
  by_cases four : bytes.length = 4
  · rw [if_pos four, if_pos four]
    rfl
  · rw [if_neg four, if_neg four]

theorem decides_unpackPair (bytes : List Byte) :
    Decides (bytes.length = 4) (unpackPair bytes) := by
  rw [unpackPair_eq]
  by_cases four : bytes.length = 4
  · rw [if_pos four]
    exact four
  · rw [if_neg four]
    exact ⟨four, rfl⟩

theorem decides_named (family : Family) (addr : List Byte) :
    Decides (addr.length = family.size) (named inetNtop family addr) := by
  rw [named]
  split
  case isTrue sized => exact sized
  case isFalse other => exact ⟨other, rfl⟩

theorem addressValue_iff (value : List Byte) :
    AddressValue value ↔ (value.take 4).length = 4 ∧
      ((ofBigEndian (value.take 2) = 0x01 ∧ (value.drop 4).length = 4) ∨
        (ofBigEndian (value.take 2) = 0x02 ∧ (value.drop 4).length = 16)) := by
  rw [List.length_take, List.length_drop]
  constructor
  · rintro ⟨family, number, length⟩
    cases family with
    | ipv4 =>
        simp only [Family.number, Family.size] at number length
        omega
    | ipv6 =>
        simp only [Family.number, Family.size] at number length
        omega
  · rintro ⟨enough, ⟨number, length⟩ | ⟨number, length⟩⟩
    · exact ⟨.ipv4, number, by simp only [Family.size]; omega⟩
    · exact ⟨.ipv6, number, by simp only [Family.size]; omega⟩

theorem decides_decodeAddress (value : List Byte) :
    Decides (AddressValue value) (decodeAddress inetNtop value) := by
  refine Decides.of_iff (addressValue_iff value).symm
    ((decides_unpackPair (value.take 4)).bind fun pair unpacked => ?_)
  rw [unpackPair_eq] at unpacked
  split at unpacked
  case isFalse => cases unpacked
  case isTrue =>
    cases unpacked
    rw [List.take_take]
    dsimp only
    rw [Nat.min_eq_left (by decide : 2 ≤ 4)]
    split
    case isTrue first =>
      refine Decides.of_iff ?_ ((decides_named inetNtop .ipv4 (value.drop 4)).andReturn _)
      simp [first, Family.size]
    case isFalse other =>
      split
      case isTrue second =>
        refine Decides.of_iff ?_ ((decides_named inetNtop .ipv6 (value.drop 4)).andReturn _)
        simp [second, Family.size]
      case isFalse neither =>
        refine ⟨?_, rfl⟩
        simp [other, neither]

theorem length_unmask {value transactionId : List Byte} (sized : transactionId.length = 12) :
    (unmask value transactionId).length = min value.length 20 := by
  simp only [unmask, xor, List.length_append, List.length_zipWith, List.length_take,
    List.length_drop, length_bigEndian, sized]
  omega

theorem take_unmask (value transactionId : List Byte) :
    (unmask value transactionId).take 2 = value.take 2 := by
  match value with
  | [] => simp [unmask, xor]
  | [first] => simp [unmask, xor]
  | first :: second :: rest => simp [unmask]

theorem addressValue_unmask {transactionId : List Byte} (sized : transactionId.length = 12)
    (value : List Byte) :
    AddressValue (unmask value transactionId) ↔ MaskedAddressValue value := by
  simp only [AddressValue, MaskedAddressValue, take_unmask, length_unmask sized]

theorem decides_decodeAttr {transactionId : List Byte} (sized : transactionId.length = 12)
    (attrtype : Nat) (value : List Byte) :
    Decides (ReadableAttr attrtype value) (decodeAttr inetNtop transactionId attrtype value) := by
  have masked : attrXorMappedAddress &&& attrMask = attrXorMappedAddress := rfl
  rw [decodeAttr, ReadableAttr, masked]
  split
  case isTrue =>
    have decided := decides_decodeAddress inetNtop (unmask value transactionId)
    exact (decided.andReturn _).of_iff (addressValue_unmask sized value)
  case isFalse =>
    split
    case isTrue mapped =>
      have decided := decides_decodeAddress inetNtop value
      exact (decided.andReturn _).of_iff (by simp [mapped])
    case isFalse unmapped => exact fun mapped => absurd mapped unmapped

end Addresses

section Attributes

variable {Name : Type} (inetNtop : Address → Name)

def attrTypeOf (text : List Byte) : Nat :=
  ofBigEndian (text.take 2)

def lengthOf (text : List Byte) : Nat :=
  ofBigEndian ((text.drop 2).take 2)

/-- The length of the first attribute with its header and its padding, as the header gives it. -/
def extentOf (text : List Byte) : Nat :=
  4 + (lengthOf text + (4 - lengthOf text % 4) % 4)

/-- What is left of the value when the text ends before it. -/
def valueOf (text : List Byte) : List Byte :=
  (text.drop 4).take (lengthOf text)

/-- A condition on the text from each attribute on. -/
inductive EachAttr (condition : List Byte → Prop) : List Byte → Prop where
  | nil : EachAttr condition []
  | cons {text : List Byte} (left : text ≠ []) (first : condition text)
      (rest : EachAttr condition (text.drop (extentOf text))) : EachAttr condition text

/-- Each attribute has a header, and an address in it can be decoded. -/
def Readable : List Byte → Prop :=
  EachAttr fun text => 4 ≤ text.length ∧ ReadableAttr (attrTypeOf text) (valueOf text)

/-- The header, the value and the padding of each attribute lie in the text. -/
def Tiled : List Byte → Prop :=
  EachAttr fun text => extentOf text ≤ text.length

theorem eachAttr_iff {condition : List Byte → Prop} {text : List Byte} (left : text ≠ []) :
    EachAttr condition text ↔
      condition text ∧ EachAttr condition (text.drop (extentOf text)) := by
  constructor
  · intro each
    cases each with
    | nil => exact absurd rfl left
    | cons _ first rest => exact ⟨first, rest⟩
  · rintro ⟨first, rest⟩
    exact .cons left first rest

theorem decodeAttrs_step (transactionId : List Byte) {text : List Byte} (left : text ≠ []) :
    decodeAttrs inetNtop transactionId text = do
      let (attrtype, length) ← unpackPair (text.take 4)
      let attr ← decodeAttr inetNtop transactionId attrtype ((text.drop 4).take length)
      let attrs ← decodeAttrs inetNtop transactionId
        (text.drop (4 + (length + (4 - length % 4) % 4)))
      return attr :: attrs := by
  cases text with
  | nil => exact absurd rfl left
  | cons first others => rw [decodeAttrs.eq_def]

theorem readable_iff {text : List Byte} (left : text ≠ []) :
    Readable text ↔ (text.take 4).length = 4 ∧ ReadableAttr (attrTypeOf text) (valueOf text) ∧
      Readable (text.drop (extentOf text)) := by
  have enough : (text.take 4).length = 4 ↔ 4 ≤ text.length := by
    rw [List.length_take]
    omega
  rw [Readable, eachAttr_iff left, enough, and_assoc]

theorem decides_decodeAttrs {transactionId : List Byte} (sized : transactionId.length = 12)
    (text : List Byte) : Decides (Readable text) (decodeAttrs inetNtop transactionId text) := by
  induction text using decodeAttrs.induct with
  | case1 =>
      rw [decodeAttrs.eq_def]
      exact EachAttr.nil
  | case2 first others ih =>
      have left : first :: others ≠ [] := List.cons_ne_nil first others
      have header := decides_unpackPair ((first :: others).take 4)
      rw [decodeAttrs_step inetNtop transactionId left]
      refine (header.bind fun pair unpacked => ?_).of_iff (readable_iff left).symm
      rw [unpackPair_eq] at unpacked
      split at unpacked
      case isFalse => cases unpacked
      case isTrue =>
        cases unpacked
        have kind : ofBigEndian (((first :: others).take 4).take 2) =
            attrTypeOf (first :: others) := by
          rw [List.take_take]
          rfl
        have length : ofBigEndian ((((first :: others).take 4).drop 2).take 2) =
            lengthOf (first :: others) := by
          rw [List.drop_take, List.take_take]
          rfl
        dsimp only
        rw [kind, length]
        have attr := decides_decodeAttr inetNtop sized (attrTypeOf (first :: others))
          (valueOf (first :: others))
        exact attr.bind fun _ _ => (ih (lengthOf (first :: others))).andReturn _

end Attributes

section Messages

variable {Name : Type} (inetNtop : Address → Name)

def bodyOf (text : List Byte) : List Byte :=
  text.drop 20

/-- A datagram whose header does not fit a message. -/
def HeaderRejected (text : List Byte) : Prop :=
  text.length < 20 ∨ ofBigEndian ((text.drop 4).take 4) ≠ magicCookie ∨
    lengthOf text ≠ (bodyOf text).length

theorem unpack_header {text : List Byte} (enough : ¬text.length < 20) :
    Struct.unpack [.unsigned 2, .unsigned 2, .unsigned 4] (text.take 8) =
      some [.int (attrTypeOf text), .int (lengthOf text),
        .int (ofBigEndian ((text.drop 4).take 4))] := by
  have size : (text.take 8).length = Struct.calcsize [.unsigned 2, .unsigned 2, .unsigned 4] := by
    rw [List.length_take]
    change min 8 text.length = 8
    omega
  rw [Struct.unpack, if_pos size]
  simp only [Struct.split, Field.unpack, Field.size, List.take_take, List.drop_take, List.drop_drop]
  rfl

theorem decode_header {text : List Byte} (enough : ¬text.length < 20) :
    decode inetNtop text =
      if ofBigEndian ((text.drop 4).take 4) ≠ magicCookie then
        .error (.cookie (ofBigEndian ((text.drop 4).take 4)))
      else if lengthOf text ≠ (bodyOf text).length then
        .error (.lengthField (bodyOf text).length (lengthOf text))
      else decodeAttrs inetNtop ((text.drop 8).take 12) (bodyOf text) >>= fun attrs =>
        .ok (attrTypeOf text, (text.drop 8).take 12, attrs) := by
  rw [decode, if_neg enough, unpack_header enough]
  simp only [Int.toNat_natCast, ne_eq, Nat.cast_inj]
  by_cases cookie : ofBigEndian ((text.drop 4).take 4) = magicCookie
  · by_cases length : lengthOf text = (text.drop 20).length
    · simp only [cookie, length, bodyOf, not_true_eq_false, if_false]
      rfl
    · simp only [cookie, length, bodyOf, not_true_eq_false, not_false_eq_true, if_false, if_true]
      rfl
  · simp only [cookie, not_false_eq_true, if_true]
    rfl

theorem decode_rejected {text : List Byte} (rejected : HeaderRejected text) :
    ∃ error, decode inetNtop text = .error error ∧ error.isParseError = true := by
  by_cases short : text.length < 20
  · rw [decode, if_pos short]
    exact ⟨_, rfl, rfl⟩
  · rw [decode_header inetNtop short]
    rcases rejected with less | cookie | length
    · exact absurd less short
    · rw [if_pos cookie]
      exact ⟨_, rfl, rfl⟩
    · rw [if_pos length]
      split
      case isTrue => exact ⟨_, rfl, rfl⟩
      case isFalse => exact ⟨_, rfl, rfl⟩

theorem decides_decode {text : List Byte} (accepted : ¬HeaderRejected text) :
    Decides (Readable (bodyOf text)) (decode inetNtop text) := by
  obtain ⟨enough, cookie, length⟩ : ¬text.length < 20 ∧
      ofBigEndian ((text.drop 4).take 4) = magicCookie ∧ lengthOf text = (bodyOf text).length := by
    simpa [HeaderRejected] using accepted
  have sized : ((text.drop 8).take 12).length = 12 := by
    rw [List.length_take, List.length_drop]
    omega
  rw [decode_header inetNtop enough, if_neg (not_not_intro cookie), if_neg (not_not_intro length)]
  exact (decides_decodeAttrs inetNtop sized (bodyOf text)).andReturn _

/-- What the decoding of a datagram is meant to do: it raises `ParseError` or nothing, and when it
returns the attributes tile the body. -/
def DecodesAsDocumented (text : List Byte) : Prop :=
  match decode inetNtop text with
  | .ok _ => Tiled (bodyOf text)
  | .error error => error.isParseError = true

/-- A datagram that raises nothing else than `ParseError`. -/
def Decodable (text : List Byte) : Prop :=
  HeaderRejected text ∨ Readable (bodyOf text)

theorem isParseError_iff (text : List Byte) :
    (∀ error, decode inetNtop text = .error error → error.isParseError = true) ↔
      Decodable text := by
  by_cases rejected : HeaderRejected text
  · obtain ⟨error, raised, parse⟩ := decode_rejected inetNtop rejected
    refine iff_of_true (fun other same => ?_) (.inl rejected)
    rw [raised] at same
    cases same
    exact parse
  · have decided := decides_decode inetNtop rejected
    rw [Decodable, or_iff_right rejected]
    cases result : decode inetNtop text with
    | ok message =>
        rw [result] at decided
        exact iff_of_true (fun _ same => by cases same) decided
    | error error =>
        rw [result] at decided
        exact iff_of_false (fun parse => Bool.eq_false_iff.mp decided.2 (parse error rfl)) decided.1

theorem decodesAsDocumented_iff (text : List Byte) :
    DecodesAsDocumented inetNtop text ↔
      HeaderRejected text ∨ (Readable (bodyOf text) ∧ Tiled (bodyOf text)) := by
  rw [DecodesAsDocumented]
  by_cases rejected : HeaderRejected text
  · obtain ⟨error, raised, parse⟩ := decode_rejected inetNtop rejected
    rw [raised]
    exact iff_of_true parse (.inl rejected)
  · have decided := decides_decode inetNtop rejected
    rw [or_iff_right rejected]
    cases result : decode inetNtop text with
    | ok message =>
        rw [result] at decided
        exact (and_iff_right decided).symm
    | error error =>
        rw [result] at decided
        exact iff_of_false (fun parse => Bool.eq_false_iff.mp decided.2 parse)
          fun both => decided.1 both.1

end Messages

end Gfiber.Stun
