import Gfiber.Waveguide.Wgdata

/-! What decoding makes of an encoded state, and of arbitrary bytes. -/

set_option autoImplicit false

namespace Gfiber.Waveguide

open Lib

namespace Eater

def left (e : Eater) : List Byte :=
  e.data.drop e.ofs

structure At (e : Eater) (rest : List Byte) : Prop where
  inside : e.ofs ≤ e.data.length
  left : e.left = rest

theorem at_new (data : List Byte) : (new data).At data :=
  ⟨Nat.zero_le _, rfl⟩

section Reading

variable {e : Eater} {fmt : List Field} {chunk rest : List Byte}

theorem At.length (here : e.At rest) : e.data.length = e.ofs + rest.length := by
  have inside := here.inside
  have size := congrArg List.length here.left
  rw [Eater.left, List.length_drop] at size
  omega

theorem At.eat (here : e.At (chunk ++ rest)) {count : Nat} (size : chunk.length = count) :
    ∃ next : Eater, e.eat count = .ok (chunk, next) ∧ next.At rest := by
  have length := here.length
  rw [List.length_append] at length
  have drop : e.data.drop e.ofs = chunk ++ rest := here.left
  have enough : ¬e.data.length < e.ofs + count := by omega
  refine ⟨{ e with ofs := e.ofs + count }, ?_, ?_, ?_⟩
  · rw [Eater.eat, if_neg enough, drop, List.take_left' size]
  · show e.ofs + count ≤ e.data.length
    omega
  · rw [Eater.left, ← List.drop_drop, drop, List.drop_left' size]

theorem At.remainder (here : e.At rest) : ∃ next : Eater, e.remainder = .ok (rest, next) := by
  have whole : e.At (rest ++ []) := by rwa [List.append_nil]
  have length := here.length
  obtain ⟨next, eaten, -⟩ := whole.eat (by omega : rest.length = e.data.length - e.ofs)
  exact ⟨next, eaten⟩

/-- Whatever stands there, enough bytes are unpacked. -/
theorem At.unpack_split (here : e.At (chunk ++ rest)) (size : chunk.length = Struct.calcsize fmt) :
    ∃ next : Eater, e.unpack fmt = .ok (Struct.split fmt chunk, next) ∧ next.At rest := by
  obtain ⟨next, eaten, after⟩ := here.eat size
  refine ⟨next, ?_, after⟩
  rw [Eater.unpack, eaten]
  simp only [bind, Except.bind, Struct.unpack, if_pos size]
  rfl

theorem At.unpack_short (here : e.At rest) (short : rest.length < Struct.calcsize fmt) :
    e.unpack fmt = .error (.decode (.short e.ofs e.data.length (Struct.calcsize fmt))) := by
  have length := here.length
  rw [Eater.unpack, Eater.eat, if_pos (by omega)]
  rfl

theorem At.unpack {values : List Value} (packed : packStruct fmt values = .ok chunk)
    (range : Struct.InRange fmt values) (here : e.At (chunk ++ rest)) :
    ∃ next : Eater, e.unpack fmt = .ok (values, next) ∧ next.At rest := by
  obtain ⟨bytes, packs, size, back⟩ := Struct.split_pack range
  rw [packStruct, packs] at packed
  cases packed
  exact back ▸ here.unpack_split size

end Reading

end Eater

section Packing

variable {fmt : List Field}

theorem packStruct_ok {values : List Value} (range : Struct.InRange fmt values) :
    ∃ bytes, packStruct fmt values = .ok bytes ∧ bytes.length = Struct.calcsize fmt := by
  obtain ⟨bytes, packs, size, -⟩ := Struct.split_pack range
  exact ⟨bytes, by rw [packStruct, packs], size⟩

theorem pack_of_packStruct {values : List Value} {bytes : List Byte}
    (packed : packStruct fmt values = .ok bytes) : Struct.pack fmt values = some bytes := by
  unfold packStruct at packed
  split at packed
  case h_1 found =>
    cases packed
    exact found
  case h_2 => cases packed

theorem packStruct_error {values : List Value} {exn : Exn}
    (failed : packStruct fmt values = .error exn) : exn = .struct := by
  unfold packStruct at failed
  split at failed
  case h_1 => cases failed
  case h_2 =>
    cases failed
    rfl

theorem packRecords_ok {records : List (List Value)}
    (range : ∀ values ∈ records, Struct.InRange fmt values) :
    ∃ bytes, packRecords fmt records = .ok bytes ∧
      bytes.length = records.length * Struct.calcsize fmt := by
  induction records with
  | nil => exact ⟨[], rfl, by simp⟩
  | cons values rest ih =>
      obtain ⟨first, packed, size⟩ := packStruct_ok (range values List.mem_cons_self)
      obtain ⟨others, more, length⟩ :=
        ih fun each member => range each (List.mem_cons_of_mem _ member)
      refine ⟨first ++ others, by rw [packRecords, packed, more]; rfl, ?_⟩
      rw [List.length_append, size, length, List.length_cons, Nat.succ_mul, Nat.add_comm]

section Loop

variable {e next : Eater} (positive : 0 < Struct.calcsize fmt) (more : e.ofs < e.data.length)

include more

theorem Eater.unpackAll_step {values : List Value} (unpacked : e.unpack fmt = .ok (values, next)) :
    e.unpackAll fmt positive =
      (next.unpackAll fmt positive >>= fun rest => .ok (values :: rest)) := by
  rw [unpackAll, if_pos more]
  split
  case h_1 exn failed =>
    rw [unpacked] at failed
    cases failed
  case h_2 found step same =>
    rw [unpacked] at same
    cases same
    rfl

theorem Eater.unpackAll_error {exn : Exn} (failed : e.unpack fmt = .error exn) :
    e.unpackAll fmt positive = .error exn := by
  rw [unpackAll, if_pos more]
  split
  case h_1 found same =>
    rw [failed] at same
    cases same
    rfl
  case h_2 found step unpacked =>
    rw [failed] at unpacked
    cases unpacked

end Loop

/-- The loop of `Iter` gives back the records that were packed. -/
theorem unpackAll_packRecords {records : List (List Value)} {bytes : List Byte} {e : Eater}
    (positive : 0 < Struct.calcsize fmt) (range : ∀ values ∈ records, Struct.InRange fmt values)
    (packed : packRecords fmt records = .ok bytes) (here : e.At bytes) :
    e.unpackAll fmt positive = .ok records := by
  induction records generalizing bytes e with
  | nil =>
      cases packed
      have length := here.length
      rw [Eater.unpackAll, if_neg (by simpa using length.le)]
  | cons values rest ih =>
      have inner := range values List.mem_cons_self
      have others := fun each member => range each (List.mem_cons_of_mem values member)
      obtain ⟨first, packs, size⟩ := packStruct_ok inner
      obtain ⟨tail, more, -⟩ := packRecords_ok others
      rw [packRecords, packs, more] at packed
      cases packed
      obtain ⟨next, unpacked, after⟩ := Eater.At.unpack packs inner here
      have length := here.length
      rw [List.length_append] at length
      rw [Eater.unpackAll_step positive (by omega) unpacked, ih others more after, ok_bind]

theorem Eater.At.iter {records : List (List Value)} {bytes rest : List Byte} {e : Eater}
    (positive : 0 < Struct.calcsize fmt) (range : ∀ values ∈ records, Struct.InRange fmt values)
    (packed : packRecords fmt records = .ok bytes) (here : e.At (bytes ++ rest)) :
    ∃ next : Eater, e.iter fmt positive bytes.length = .ok (records, next) ∧ next.At rest := by
  obtain ⟨next, eaten, after⟩ := here.eat rfl
  refine ⟨next, ?_, after⟩
  rw [Eater.iter, eaten]
  simp only [bind, Except.bind, unpackAll_packRecords positive range packed (Eater.at_new bytes)]
  rfl

theorem mapM_tuples {Entry : Type} {tuple : Entry → List Value}
    {ofTuple : List Value → Except Exn Entry} (back : ∀ entry, ofTuple (tuple entry) = .ok entry)
    (entries : List Entry) : (entries.map tuple).mapM ofTuple = .ok entries := by
  induction entries with
  | nil => rfl
  | cons entry rest ih =>
      rw [List.map_cons, List.mapM_cons, back, ih]
      rfl

end Packing

section Tuples

theorem Me.ofTuple_tuple (me : Me) : Me.ofTuple me.tuple = .ok me := rfl

theorem BSS.ofTuple_tuple (bss : BSS) : BSS.ofTuple bss.tuple = .ok bss := rfl

theorem Channel.ofTuple_tuple (chan : Channel) : Channel.ofTuple chan.tuple = .ok chan := rfl

theorem Assoc.ofTuple_tuple (assoc : Assoc) : Assoc.ofTuple assoc.tuple = .ok assoc := rfl

theorem ARP.ofTuple_tuple (arp : ARP) : ARP.ofTuple arp.tuple = .ok arp := rfl

end Tuples

/-- The fields are in range of their formats; for `last_seen` that is its age. -/
structure State.InRange (state : State) : Prop where
  me : Struct.InRange meFmt state.me.tuple
  bss : ∀ bss ∈ state.seenBss, Struct.InRange bssFmt (bss.aged state.me.now).tuple
  chan : ∀ chan ∈ state.channelSurvey, Struct.InRange channelFmt chan.tuple
  assoc : ∀ assoc ∈ state.assoc, Struct.InRange assocFmt (assoc.aged state.me.now).tuple
  arp : ∀ arp ∈ state.arp, Struct.InRange arpFmt (arp.aged state.me.now).tuple

/-- The lengths of the four lists fit the header. -/
structure State.FitsHeader (state : State) : Prop where
  bss : state.seenBss.length * Struct.calcsize bssFmt < 2 ^ 32
  chan : state.channelSurvey.length * Struct.calcsize channelFmt < 2 ^ 32
  assoc : state.assoc.length * Struct.calcsize assocFmt < 2 ^ 32
  arp : state.arp.length * Struct.calcsize arpFmt < 2 ^ 32

/-- Every `last_seen` is as far from zero as from `now`. -/
@[mk_iff]
structure State.AgesAreTimes (state : State) : Prop where
  bss : ∀ bss ∈ state.seenBss, state.me.now - bss.lastSeen = bss.lastSeen
  assoc : ∀ assoc ∈ state.assoc, state.me.now - assoc.lastSeen = assoc.lastSeen
  arp : ∀ arp ∈ state.arp, state.me.now - arp.lastSeen = arp.lastSeen

/-- The state that comes out: every `last_seen` is now the age that was sent. -/
def State.aged (state : State) : State :=
  { state with
    seenBss := state.seenBss.map (BSS.aged state.me.now)
    assoc := state.assoc.map (Assoc.aged state.me.now)
    arp := state.arp.map (ARP.aged state.me.now) }

def prefixBytes : List Byte := [0x77, 0x61, 0x76, 0x65, 2]

section RoundTrip

theorem unsigned_four {length : Nat} : (length : Int) < 256 ^ 4 ↔ length < 2 ^ 32 := by
  have power : (256 : Int) ^ 4 = 2 ^ 32 := by norm_num
  rw [power]
  exact_mod_cast Iff.rfl

theorem header_inRange {bss chan assoc arp : Nat} (bssFits : bss < 2 ^ 32)
    (chanFits : chan < 2 ^ 32) (assocFits : assoc < 2 ^ 32) (arpFits : arp < 2 ^ 32) :
    Struct.InRange headerFmt [.int bss, .int chan, .int assoc, .int arp] := by
  have unsigned {length : Nat} (fits : length < 2 ^ 32) :
      (Field.unsigned 4).InRange (.int length) :=
    ⟨Int.natCast_nonneg _, unsigned_four.mpr fits⟩
  exact .cons (unsigned bssFits) (.cons (unsigned chanFits) (.cons (unsigned assocFits)
    (.cons (unsigned arpFits) .nil)))

theorem header_fits {bss chan assoc arp : Nat} {bytes : List Byte}
    (packed : packStruct headerFmt [.int bss, .int chan, .int assoc, .int arp] = .ok bytes) :
    bss < 2 ^ 32 ∧ chan < 2 ^ 32 ∧ assoc < 2 ^ 32 ∧ arp < 2 ^ 32 := by
  have fits {length : Nat} (packs : ((Field.unsigned 4).pack (.int length)).isSome) :
      length < 2 ^ 32 := unsigned_four.mp (Field.unsigned_of_pack packs).2
  have each := Struct.pack_some (pack_of_packStruct packed)
  simp only [headerFmt, List.forall₂_cons] at each
  obtain ⟨first, second, third, fourth, -⟩ := each
  exact ⟨fits first, fits second, fits third, fits fourth⟩

theorem unpack_pre (compressed : List Byte) : ∃ next : Eater,
    (Eater.new (prefixBytes ++ compressed)).unpack preFmt = .ok ([protoMagic, protoVersion], next) ∧
      next.At compressed :=
  (Eater.at_new _).unpack_split rfl

/-- The parts of an encoded state. -/
structure Parts (state : State) where
  me : List Byte
  bss : List Byte
  chan : List Byte
  assoc : List Byte
  arp : List Byte
  me_packed : packStruct meFmt state.me.tuple = .ok me
  bss_packed : packRecords bssFmt (state.aged.seenBss.map BSS.tuple) = .ok bss
  chan_packed : packRecords channelFmt (state.channelSurvey.map Channel.tuple) = .ok chan
  assoc_packed : packRecords assocFmt (state.aged.assoc.map Assoc.tuple) = .ok assoc
  arp_packed : packRecords arpFmt (state.aged.arp.map ARP.tuple) = .ok arp
  bss_length : bss.length = state.seenBss.length * Struct.calcsize bssFmt
  chan_length : chan.length = state.channelSurvey.length * Struct.calcsize channelFmt
  assoc_length : assoc.length = state.assoc.length * Struct.calcsize assocFmt
  arp_length : arp.length = state.arp.length * Struct.calcsize arpFmt

section Range

variable {state : State} (range : state.InRange)

include range

theorem State.InRange.bssTuples :
    ∀ values ∈ state.aged.seenBss.map BSS.tuple, Struct.InRange bssFmt values := by
  simpa [State.aged] using range.bss

theorem State.InRange.chanTuples :
    ∀ values ∈ state.channelSurvey.map Channel.tuple, Struct.InRange channelFmt values := by
  simpa using range.chan

theorem State.InRange.assocTuples :
    ∀ values ∈ state.aged.assoc.map Assoc.tuple, Struct.InRange assocFmt values := by
  simpa [State.aged] using range.assoc

theorem State.InRange.arpTuples :
    ∀ values ∈ state.aged.arp.map ARP.tuple, Struct.InRange arpFmt values := by
  simpa [State.aged] using range.arp

theorem State.InRange.parts : Nonempty (Parts state) := by
  obtain ⟨me, mePacked, -⟩ := packStruct_ok range.me
  obtain ⟨bss, bssPacked, bssLength⟩ := packRecords_ok range.bssTuples
  obtain ⟨chan, chanPacked, chanLength⟩ := packRecords_ok range.chanTuples
  obtain ⟨assoc, assocPacked, assocLength⟩ := packRecords_ok range.assocTuples
  obtain ⟨arp, arpPacked, arpLength⟩ := packRecords_ok range.arpTuples
  simp only [List.length_map, State.aged] at bssLength chanLength assocLength arpLength
  exact ⟨⟨me, bss, chan, assoc, arp, mePacked, bssPacked, chanPacked, assocPacked, arpPacked,
    bssLength, chanLength, assocLength, arpLength⟩⟩

end Range

namespace Parts

variable {state : State} (parts : Parts state)

def lengths : List Value :=
  [.int parts.bss.length, .int parts.chan.length, .int parts.assoc.length, .int parts.arp.length]

theorem packed_pre : packStruct preFmt [protoMagic, protoVersion] = .ok prefixBytes := rfl

/-- Encoding is the header's packing and the concatenation of the parts. -/
theorem encodePacket_eq (zlib : Zlib) : encodePacket zlib state =
    (packStruct headerFmt parts.lengths).map fun header =>
      prefixBytes ++ zlib.compress
        (header ++ parts.me ++ parts.bss ++ parts.chan ++ parts.assoc ++ parts.arp) := by
  have bss := parts.bss_packed
  have assoc := parts.assoc_packed
  have arp := parts.arp_packed
  simp only [State.aged, List.map_map, Function.comp_def] at bss assoc arp
  rw [encodePacket, parts.me_packed, ok_bind, bss, ok_bind, parts.chan_packed, ok_bind, assoc,
    ok_bind, arp, ok_bind, packed_pre, ← lengths]
  cases packStruct headerFmt parts.lengths with
  | error exn => rfl
  | ok header => rfl

theorem packed_header_iff :
    (∃ header, packStruct headerFmt parts.lengths = .ok header) ↔ state.FitsHeader := by
  constructor
  · rintro ⟨header, packed⟩
    obtain ⟨bss, chan, assoc, arp⟩ := header_fits packed
    exact ⟨parts.bss_length ▸ bss, parts.chan_length ▸ chan, parts.assoc_length ▸ assoc,
      parts.arp_length ▸ arp⟩
  · rintro ⟨bss, chan, assoc, arp⟩
    obtain ⟨header, packed, -⟩ := packStruct_ok (header_inRange (parts.bss_length ▸ bss)
      (parts.chan_length ▸ chan) (parts.assoc_length ▸ assoc) (parts.arp_length ▸ arp))
    exact ⟨header, packed⟩

/-- The receiver gets the ages, whatever the sender knew. -/
theorem decodePacket_eq {zlib : Zlib} {header compressed : List Byte} (range : state.InRange)
    (packed : packStruct headerFmt parts.lengths = .ok header)
    (inflated : zlib.decompress compressed =
      some (header ++ parts.me ++ parts.bss ++ parts.chan ++ parts.assoc ++ parts.arp)) :
    decodePacket zlib (prefixBytes ++ compressed) = .ok state.aged := by
  obtain ⟨bss, chan, assoc, arp⟩ := header_fits packed
  have lengths := header_inRange bss chan assoc arp
  obtain ⟨pre, unpackedPre, atPre⟩ := unpack_pre compressed
  obtain ⟨rest, taken⟩ := atPre.remainder
  have start := Eater.at_new
    (header ++ parts.me ++ parts.bss ++ parts.chan ++ parts.assoc ++ parts.arp)
  simp only [List.append_assoc] at start inflated
  obtain ⟨atMe, unpackedHeader, here⟩ := Eater.At.unpack packed lengths start
  obtain ⟨atBss, unpackedMe, here⟩ := Eater.At.unpack parts.me_packed range.me here
  obtain ⟨atChan, iterBss, here⟩ :=
    Eater.At.iter (by decide) range.bssTuples parts.bss_packed here
  obtain ⟨atAssoc, iterChan, here⟩ :=
    Eater.At.iter (by decide) range.chanTuples parts.chan_packed here
  obtain ⟨atArp, iterAssoc, here⟩ :=
    Eater.At.iter (by decide) range.assocTuples parts.assoc_packed here
  rw [← List.append_nil parts.arp] at here
  obtain ⟨atEnd, iterArp, -⟩ := Eater.At.iter (by decide) range.arpTuples parts.arp_packed here
  rw [decodePacket, unpackedPre, ok_bind]
  simp only [ne_eq, not_true_eq_false, if_false]
  rw [taken, ok_bind]
  simp only [inflated]
  rw [unpackedHeader, ok_bind]
  simp only [Parts.lengths, Int.toNat_natCast]
  rw [unpackedMe, ok_bind, Me.ofTuple_tuple, ok_bind, iterBss, ok_bind,
    mapM_tuples BSS.ofTuple_tuple, ok_bind, iterChan, ok_bind, mapM_tuples Channel.ofTuple_tuple,
    ok_bind, iterAssoc, ok_bind, mapM_tuples Assoc.ofTuple_tuple, ok_bind, iterArp, ok_bind,
    mapM_tuples ARP.ofTuple_tuple, ok_bind]
  rfl

end Parts

section Ages

variable {state : State}

theorem map_eq_self_iff {Entry : Type} {age : Entry → Entry} {entries : List Entry} :
    entries.map age = entries ↔ ∀ entry ∈ entries, age entry = entry := by
  simpa using List.map_inj_left (l := entries) (f := age) (g := id)

theorem BSS.aged_eq_iff {now : Int} (bss : BSS) :
    bss.aged now = bss ↔ now - bss.lastSeen = bss.lastSeen := by
  cases bss
  simp [BSS.aged]

theorem Assoc.aged_eq_iff {now : Int} (assoc : Assoc) :
    assoc.aged now = assoc ↔ now - assoc.lastSeen = assoc.lastSeen := by
  cases assoc
  simp [Assoc.aged]

theorem ARP.aged_eq_iff {now : Int} (arp : ARP) :
    arp.aged now = arp ↔ now - arp.lastSeen = arp.lastSeen := by
  cases arp
  simp [ARP.aged]

theorem State.aged_eq_iff : state.aged = state ↔ state.AgesAreTimes := by
  obtain ⟨me, bss, chan, assoc, arp⟩ := state
  simp only [State.aged, State.mk.injEq, true_and, map_eq_self_iff, BSS.aged_eq_iff,
    Assoc.aged_eq_iff, ARP.aged_eq_iff, State.agesAreTimes_iff]

/-- Encoding succeeds when the lists fit the header, and decoding then gives the
state with ages for times. -/
theorem encode_decode {zlib : Zlib} (inverts : zlib.Inverts) (range : state.InRange)
    (fits : state.FitsHeader) : (encodePacket zlib state >>= decodePacket zlib) = .ok state.aged := by
  obtain ⟨parts⟩ := range.parts
  obtain ⟨header, packed⟩ := parts.packed_header_iff.mpr fits
  rw [parts.encodePacket_eq, packed]
  exact parts.decodePacket_eq range packed (inverts _)

theorem encode_fails {zlib : Zlib} (range : state.InRange) (large : ¬state.FitsHeader) :
    (encodePacket zlib state >>= decodePacket zlib) = .error .struct := by
  obtain ⟨parts⟩ := range.parts
  rw [parts.encodePacket_eq]
  cases packed : packStruct headerFmt parts.lengths with
  | ok header => exact absurd (parts.packed_header_iff.mp ⟨header, packed⟩) large
  | error exn => rw [packStruct_error packed]; rfl

/-- A state in range comes back as it was exactly when its lists fit the header
and the ages sent in the place of the times happen to equal them. -/
theorem packet_round_trip {zlib : Zlib} (inverts : zlib.Inverts) (range : state.InRange) :
    (encodePacket zlib state >>= decodePacket zlib) = .ok state ↔
      state.FitsHeader ∧ state.AgesAreTimes := by
  by_cases fits : state.FitsHeader
  · rw [encode_decode inverts range fits, Except.ok.injEq, State.aged_eq_iff]
    exact ⟨fun times => ⟨fits, times⟩, And.right⟩
  · rw [encode_fails range fits]
    constructor
    · intro same
      cases same
    · intro both
      exact absurd both.1 fits

/-- The calls of `zlib` on one string as they were recorded; other strings are
only marked. -/
def Zlib.recorded (data deflated : List Byte) : Zlib where
  compress bytes := if bytes = data then deflated else 0 :: bytes
  decompress bytes :=
    if bytes = deflated then some data
    else if bytes.head? = some 0 then some bytes.tail
    else none

theorem Zlib.recorded_inverts {data deflated : List Byte} (unmarked : deflated.head? ≠ some 0) :
    (recorded data deflated).Inverts := by
  intro bytes
  by_cases same : bytes = data
  · simp [recorded, same]
  · have other : ¬0 :: bytes = deflated := by
      rintro rfl
      exact unmarked rfl
    simp only [recorded, if_neg same, if_neg other]
    rfl

/-- A node with one entry in its ARP table. -/
def nodeWithArp (lastSeen : Int) : State where
  me := ⟨1400000000, 5000, List.replicate 16 1, [2, 0, 0, 0, 0, 1], 3⟩
  seenBss := []
  channelSurvey := []
  assoc := []
  arp := [⟨[192, 168, 1, 2], [2, 0, 0, 0, 0, 9], lastSeen⟩]

def nodeData (age : List Byte) : List Byte :=
  List.replicate 15 0 ++ [14] ++ [0, 0, 0, 0, 83, 114, 78, 0] ++ [0, 0, 0, 0, 0, 0, 19, 136] ++
    List.replicate 16 1 ++ [2, 0, 0, 0, 0, 1] ++ [0, 0, 0, 3] ++
    [192, 168, 1, 2, 2, 0, 0, 0, 0, 9] ++ age

theorem nodeWithArp_inRange {lastSeen : Int} (past : lastSeen ≤ 1400000000)
    (recent : 1400000000 - lastSeen < 4294967296) : (nodeWithArp lastSeen).InRange := by
  constructor <;>
    simp [nodeWithArp, Struct.InRange, meFmt, Me.tuple, arpFmt, ARP.tuple, ARP.aged,
      Field.InRange, past, recent]

theorem nodeWithArp_fits (lastSeen : Int) : (nodeWithArp lastSeen).FitsHeader := by
  constructor <;> simp [nodeWithArp, Struct.calcsize, arpFmt, Field.size]

/-- Seen halfway between the epoch and now. -/
def halfwayZlib : Zlib :=
  .recorded (nodeData [41, 185, 39, 0])
    [120, 156, 99, 96, 64, 1, 124, 32, 34, 184, 200, 15, 202, 21, 238, 96, 68, 3, 76, 32, 97, 70,
      32, 102, 62, 176, 130, 145, 9, 204, 227, 212, 220, 169, 206, 0, 0, 108, 26, 4, 82]

theorem packet_round_trip_halfway :
    (encodePacket halfwayZlib (nodeWithArp 700000000) >>= decodePacket halfwayZlib) =
      .ok (nodeWithArp 700000000) := by
  refine (packet_round_trip (Zlib.recorded_inverts (by decide))
    (nodeWithArp_inRange (by decide) (by decide))).mpr ⟨nodeWithArp_fits _, ?_⟩
  constructor <;> simp [nodeWithArp]

/-- Seen ten seconds ago. -/
def recentZlib : Zlib :=
  .recorded (nodeData [0, 0, 0, 10])
    [120, 156, 99, 96, 64, 1, 124, 32, 34, 184, 200, 15, 202, 21, 238, 96, 68, 3, 76, 32, 97, 70,
      32, 102, 62, 176, 130, 145, 9, 204, 227, 4, 98, 46, 0, 105, 7, 3, 83]

/-- An entry seen ten seconds ago comes back as seen ten seconds after the epoch. -/
theorem recent_arp_changed : recentZlib.Inverts ∧ (nodeWithArp 1399999990).InRange ∧
    (encodePacket recentZlib (nodeWithArp 1399999990) >>= decodePacket recentZlib) =
      .ok (nodeWithArp 10) ∧ nodeWithArp 10 ≠ nodeWithArp 1399999990 := by
  have inverts : recentZlib.Inverts := Zlib.recorded_inverts (by decide)
  have range : (nodeWithArp 1399999990).InRange := nodeWithArp_inRange (by decide) (by decide)
  refine ⟨inverts, range, ?_, by decide⟩
  rw [encode_decode inverts range (nodeWithArp_fits _)]
  rfl

end Ages

end RoundTrip

section Robustness

/-- What `ReadReady` goes on after: a result or a `DecodeError`. -/
def Caught {Result : Type} (outcome : Except Exn Result) : Prop :=
  (∃ result, outcome = .ok result) ∨ ∃ error, outcome = .error (.decode error)

theorem Caught.bind {Value Result : Type} {outcome : Except Exn Value}
    {next : Value → Except Exn Result} (first : Caught outcome)
    (rest : ∀ value, outcome = .ok value → Caught (next value)) : Caught (outcome >>= next) := by
  rcases first with ⟨value, rfl⟩ | ⟨error, rfl⟩
  · exact rest value rfl
  · exact .inr ⟨error, rfl⟩

/-- Every tuple comes from bytes of the format's fields. -/
def Unpacked (fmt : List Field) (values : List Value) : Prop :=
  ∃ bytes, values = Struct.split fmt bytes

namespace Eater

variable {fmt : List Field}

theorem eat_caught (e : Eater) (n : Nat) : Caught (e.eat n) := by
  unfold eat
  split
  · exact .inr ⟨_, rfl⟩
  · exact .inl ⟨_, rfl⟩

theorem length_of_eat {e next : Eater} {n : Nat} {bytes : List Byte}
    (eaten : e.eat n = .ok (bytes, next)) : bytes.length = n := by
  unfold eat at eaten
  split at eaten
  case isTrue => cases eaten
  case isFalse enough =>
    cases eaten
    rw [List.length_take, List.length_drop]
    omega

theorem unpack_caught (e : Eater) (fmt : List Field) : Caught (e.unpack fmt) := by
  refine (e.eat_caught _).bind ?_
  rintro ⟨bytes, next⟩ eaten
  simp only [Struct.unpack, if_pos (length_of_eat eaten)]
  exact .inl ⟨_, rfl⟩

theorem unpacked_of_unpack {e next : Eater} {values : List Value}
    (unpacked : e.unpack fmt = .ok (values, next)) : Unpacked fmt values := by
  rcases e.eat_caught (Struct.calcsize fmt) with ⟨⟨bytes, after⟩, eaten⟩ | ⟨error, eaten⟩
  · rw [unpack, eaten, ok_bind] at unpacked
    simp only [Struct.unpack, if_pos (length_of_eat eaten)] at unpacked
    cases unpacked
    exact ⟨bytes, rfl⟩
  · rw [unpack, eaten] at unpacked
    cases unpacked

/-- A length that is not a multiple of the record's ends in a short packet. -/
theorem unpackAll_caught (positive : 0 < Struct.calcsize fmt) (e : Eater) :
    (∃ records, e.unpackAll fmt positive = .ok records ∧ ∀ values ∈ records, Unpacked fmt values) ∨
      ∃ error, e.unpackAll fmt positive = .error (.decode error) := by
  induction e using unpackAll.induct fmt positive with
  | case1 e more exn failed =>
      rcases e.unpack_caught fmt with ⟨result, unpacked⟩ | ⟨error, raised⟩
      · rw [failed] at unpacked
        cases unpacked
      · exact .inr ⟨error, unpackAll_error positive more raised⟩
  | case2 e more values next unpacked ih =>
      rw [unpackAll_step positive more unpacked]
      rcases ih with ⟨records, rest, each⟩ | ⟨error, rest⟩
      · refine .inl ⟨values :: records, by rw [rest]; rfl, ?_⟩
        exact List.forall_mem_cons.mpr ⟨unpacked_of_unpack unpacked, each⟩
      · exact .inr ⟨error, by rw [rest]; rfl⟩
  | case3 e finished =>
      exact .inl ⟨[], by rw [unpackAll, if_neg finished], by simp⟩

theorem iter_caught (positive : 0 < Struct.calcsize fmt) (e : Eater) (nbytes : Nat) :
    Caught (e.iter fmt positive nbytes) := by
  refine (e.eat_caught nbytes).bind ?_
  rintro ⟨bytes, next⟩ -
  rcases unpackAll_caught positive (Eater.new bytes) with ⟨records, all, -⟩ | ⟨error, all⟩
  · simp only [all]
    exact .inl ⟨_, rfl⟩
  · simp only [all]
    exact .inr ⟨error, rfl⟩

theorem unpacked_of_iter {positive : 0 < Struct.calcsize fmt} {e next : Eater} {nbytes : Nat}
    {records : List (List Value)} (iterated : e.iter fmt positive nbytes = .ok (records, next)) :
    ∀ values ∈ records, Unpacked fmt values := by
  rcases e.eat_caught nbytes with ⟨⟨bytes, after⟩, eaten⟩ | ⟨error, eaten⟩
  · rw [iter, eaten, ok_bind] at iterated
    rcases unpackAll_caught positive (Eater.new bytes) with ⟨all, found, each⟩ | ⟨error, found⟩
    · simp only [found] at iterated
      cases iterated
      exact each
    · simp only [found] at iterated
      cases iterated
  · rw [iter, eaten] at iterated
    cases iterated

end Eater

theorem mapM_unpacked {Entry : Type} {fmt : List Field} {ofTuple : List Value → Except Exn Entry}
    (fits : ∀ bytes, ∃ entry, ofTuple (Struct.split fmt bytes) = .ok entry)
    {records : List (List Value)} (each : ∀ values ∈ records, Unpacked fmt values) :
    ∃ entries, records.mapM ofTuple = .ok entries := by
  induction records with
  | nil => exact ⟨[], rfl⟩
  | cons values rest ih =>
      obtain ⟨⟨bytes, rfl⟩, others⟩ := List.forall_mem_cons.mp each
      obtain ⟨entry, first⟩ := fits bytes
      obtain ⟨entries, after⟩ := ih others
      exact ⟨entry :: entries, by rw [List.mapM_cons, first, after]; rfl⟩

/-- Reading one list of the packet and building its entries. -/
theorem Caught.entries {Entry Result : Type} {fmt : List Field}
    {ofTuple : List Value → Except Exn Entry}
    (fits : ∀ bytes, ∃ entry, ofTuple (Struct.split fmt bytes) = .ok entry)
    (positive : 0 < Struct.calcsize fmt) (e : Eater) (nbytes : Nat)
    {next : List (List Value) × Eater → List Entry → Except Exn Result}
    (rest : ∀ read entries, Caught (next read entries)) :
    Caught (e.iter fmt positive nbytes >>= fun read => read.1.mapM ofTuple >>= next read) := by
  refine (Eater.iter_caught positive e nbytes).bind ?_
  intro read iterated
  obtain ⟨entries, built⟩ := mapM_unpacked fits (Eater.unpacked_of_iter iterated)
  rw [built]
  exact rest read entries

section Shapes

theorem BSS.ofTuple_split (bytes : List Byte) :
    ∃ bss, BSS.ofTuple (Struct.split bssFmt bytes) = .ok bss := ⟨_, rfl⟩

theorem Channel.ofTuple_split (bytes : List Byte) :
    ∃ chan, Channel.ofTuple (Struct.split channelFmt bytes) = .ok chan := ⟨_, rfl⟩

theorem Assoc.ofTuple_split (bytes : List Byte) :
    ∃ assoc, Assoc.ofTuple (Struct.split assocFmt bytes) = .ok assoc := ⟨_, rfl⟩

theorem ARP.ofTuple_split (bytes : List Byte) :
    ∃ arp, ARP.ofTuple (Struct.split arpFmt bytes) = .ok arp := ⟨_, rfl⟩

theorem split_preFmt (chunk : List Byte) : Struct.split preFmt chunk =
    [.text (chunk.take 4), .int (ofBigEndian ((chunk.drop 4).take 1))] := rfl

end Shapes

/-- The bytes after the prefix of a packet that `zlib` cannot decompress. -/
def Garbled (zlib : Zlib) (p : List Byte) : Prop :=
  ∃ compressed, p = prefixBytes ++ compressed ∧ zlib.decompress compressed = none

theorem decodePacket_garbled {zlib : Zlib} {compressed : List Byte}
    (failed : zlib.decompress compressed = none) :
    ¬Caught (decodePacket zlib (prefixBytes ++ compressed)) := by
  obtain ⟨pre, unpacked, here⟩ := unpack_pre compressed
  obtain ⟨rest, taken⟩ := here.remainder
  rw [decodePacket, unpacked, ok_bind]
  simp only [ne_eq, not_true_eq_false, if_false]
  rw [taken, ok_bind]
  simp only [failed]
  rintro (⟨state, decoded⟩ | ⟨error, raised⟩)
  · cases decoded
  · cases raised

theorem decodePacket_inflated {zlib : Zlib} {compressed data : List Byte}
    (inflated : zlib.decompress compressed = some data) :
    Caught (decodePacket zlib (prefixBytes ++ compressed)) := by
  obtain ⟨pre, unpacked, here⟩ := unpack_pre compressed
  obtain ⟨rest, taken⟩ := here.remainder
  rw [decodePacket, unpacked, ok_bind]
  simp only [ne_eq, not_true_eq_false, if_false]
  rw [taken, ok_bind]
  simp only [inflated]
  refine (Eater.unpack_caught _ _).bind ?_
  rintro ⟨header, e⟩ headed
  obtain ⟨lengths, rfl⟩ := Eater.unpacked_of_unpack headed
  refine (Eater.unpack_caught _ _).bind ?_
  rintro ⟨me, e⟩ read
  obtain ⟨bytes, rfl⟩ := Eater.unpacked_of_unpack read
  refine Caught.bind (.inl ⟨_, rfl⟩) fun me _ => ?_
  refine Caught.entries BSS.ofTuple_split _ _ _ fun bssRead bssList => ?_
  refine Caught.entries Channel.ofTuple_split _ _ _ fun chanRead chanList => ?_
  refine Caught.entries Assoc.ofTuple_split _ _ _ fun assocRead assocList => ?_
  refine Caught.entries ARP.ofTuple_split _ _ _ fun arpRead arpList => ?_
  exact .inl ⟨_, rfl⟩

theorem prefix_of_split {chunk : List Byte} (size : chunk.length = Struct.calcsize preFmt)
    (magic : Value.text (chunk.take 4) = protoMagic)
    (version : Value.int (ofBigEndian ((chunk.drop 4).take 1)) = protoVersion) :
    chunk = prefixBytes := by
  simp only [protoMagic, protoVersion, Value.text.injEq, Value.int.injEq] at magic version
  have single : (chunk.drop 4).length = 1 := by
    rw [List.length_drop, size]
    rfl
  obtain ⟨last, rest⟩ := List.length_eq_one_iff.mp single
  have two : last = 2 := by
    rw [rest] at version
    have value : (last.toNat : Int) = 2 := by simpa [ofBigEndian] using version
    exact BitVec.eq_of_toNat_eq (by exact_mod_cast value)
  rw [← List.take_append_drop 4 chunk, magic, rest, two]
  rfl

/-- Decoding gives a state or a `DecodeError` for all packets but those that
reach `zlib` and make it fail. -/
theorem decodePacket_caught_iff (zlib : Zlib) (p : List Byte) :
    Caught (decodePacket zlib p) ↔ ¬Garbled zlib p := by
  constructor
  · rintro caught ⟨compressed, rfl, failed⟩
    exact decodePacket_garbled failed caught
  · intro clear
    rcases Nat.lt_or_ge p.length (Struct.calcsize preFmt) with short | enough
    · rw [decodePacket, (Eater.at_new p).unpack_short short]
      exact .inr ⟨_, rfl⟩
    · have size : (p.take (Struct.calcsize preFmt)).length = Struct.calcsize preFmt := by
        rw [List.length_take, Nat.min_eq_left enough]
      have parts := (List.take_append_drop (Struct.calcsize preFmt) p).symm
      have here : (Eater.new p).At
          (p.take (Struct.calcsize preFmt) ++ p.drop (Struct.calcsize preFmt)) :=
        parts ▸ Eater.at_new p
      obtain ⟨e, unpacked, after⟩ := here.unpack_split size
      rw [split_preFmt] at unpacked
      by_cases magic : Value.text ((p.take (Struct.calcsize preFmt)).take 4) = protoMagic
      · by_cases version : Value.int (ofBigEndian
            (((p.take (Struct.calcsize preFmt)).drop 4).take 1)) = protoVersion
        · have headed := prefix_of_split size magic version
          rw [headed] at parts
          rw [parts]
          cases inflated : zlib.decompress (p.drop (Struct.calcsize preFmt)) with
          | none => exact absurd ⟨_, parts, inflated⟩ clear
          | some data => exact decodePacket_inflated inflated
        · rw [decodePacket, unpacked, ok_bind]
          simp only [magic, version, ne_eq, not_true_eq_false, not_false_eq_true, if_false, if_true]
          exact .inr ⟨_, rfl⟩
      · rw [decodePacket, unpacked, ok_bind]
        simp only [magic, ne_eq, not_false_eq_true, if_true]
        exact .inr ⟨_, rfl⟩

/-- Only the prefix arrives, and the empty string is no compressed one. -/
theorem decodePacket_bare_prefix :
    ¬Caught (decodePacket recentZlib [0x77, 0x61, 0x76, 0x65, 2]) := by
  have empty : recentZlib.decompress [] = none := rfl
  exact decodePacket_garbled empty

end Robustness

end Gfiber.Waveguide
