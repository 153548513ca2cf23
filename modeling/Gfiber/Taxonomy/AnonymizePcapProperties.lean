import Gfiber.Taxonomy.AnonymizePcap

/-! What of a frame is overwritten, and which frames cannot be told apart afterwards. -/

set_option autoImplicit false

namespace Gfiber.Taxonomy

open Lib

section Layout

/-- The offset of the elements in a frame of this kind. -/
def variableOffset (subtype : Half) : Option Nat :=
  if subtype = assocReq then some assocReqVariable
  else if subtype = probeReq then some probeReqVariable
  else if subtype = probeResp then some probeRespVariable
  else if subtype = beacon then some beaconVariable
  else none

/-- A frame of one of the four kinds, where it begins and where its elements do. -/
structure Frame (hdr : PacketHeader) (pkt : List Byte) (mlme start : Nat) : Prop where
  captured : hdr.caplen.toNat = pkt.length
  radiotap : (readHalf pkt 2).map BitVec.toNat = some mlme
  control : ∃ fc offset, readHalf pkt mlme = some fc ∧ frameType fc = 0 ∧
    variableOffset (frameSubtype fc) = some offset ∧ start = mlme + offset
  long : start + 4 ≤ pkt.length

/-- A byte of the value of an element for the name of the network, which may be cut short. -/
def SsidValue (pkt : List Byte) (start place : Nat) : Prop :=
  ∃ element length, ElementAt pkt start 0 element length ∧ element + 2 ≤ place ∧
    place < element + 2 + length

/-- A byte of such an element that ends before the last four bytes. -/
def FittingValue (pkt : List Byte) (start place : Nat) : Prop :=
  ∃ element length, ElementAt pkt start 0 element length ∧ element + 2 ≤ place ∧
    place < element + 2 + length ∧ element + 2 + length + 4 ≤ pkt.length

def addressOffsets : List Nat :=
  [daOffset, saOffset, bssidOffset]

/-- One of the last three bytes of an address that is not the broadcast address. -/
def AddressTail (pkt : List Byte) (mlme place : Nat) : Prop :=
  ∃ offset ∈ addressOffsets, isBroadcastMac pkt (mlme + offset) = false ∧
    mlme + offset + 3 ≤ place ∧ place < mlme + offset + 6

/-- What is to be overwritten. -/
def Sensitive (pkt : List Byte) (mlme start place : Nat) : Prop :=
  SsidValue pkt start place ∨ AddressTail pkt mlme place

/-- Frames that differ in sensitive bytes only. -/
structure Alike (mlme start : Nat) (left right : List Byte) : Prop where
  length : left.length = right.length
  differ : ∀ place : Nat, left[place]? ≠ right[place]? →
    Sensitive left mlme start place ∧ Sensitive right mlme start place

def Unchanged (mlme start : Nat) (pkt out : List Byte) : Prop :=
  ∀ place, ¬ Sensitive pkt mlme start place → out[place]? = pkt[place]?

end Layout

section Loop

theorem store_eq {pkt bytes : List Byte} {offset : Nat}
    (fits : offset + bytes.length ≤ pkt.length) :
    store pkt offset bytes = some (writeAt pkt offset bytes) :=
  if_pos fits

theorem FittingValue.ssidValue {pkt : List Byte} {start place : Nat}
    (value : FittingValue pkt start place) : SsidValue pkt start place := by
  obtain ⟨element, length, at_element, lower, upper, -⟩ := value
  exact ⟨element, length, at_element, lower, upper⟩

theorem FittingValue.le {pkt : List Byte} {start place : Nat}
    (value : FittingValue pkt start place) :
    start + 2 ≤ place ∧ start + 6 ≤ pkt.length := by
  obtain ⟨element, length, at_element, lower, upper, fits⟩ := value
  have reached := at_element.chain.le
  omega

/-- What is overwritten depends on the bytes from the first element on. -/
theorem FittingValue.congr {pkt other : List Byte} {start place : Nat}
    (value : FittingValue pkt start place) (size : pkt.length = other.length)
    (same : ∀ place, start ≤ place → pkt[place]? = other[place]?) :
    FittingValue other start place := by
  obtain ⟨element, length, at_element, lower, upper, fits⟩ := value
  have chain : Chain other start element := at_element.chain.congr fun first chain _ =>
    ⟨same first chain.le, same (first + 1) (chain.le.trans (Nat.le_succ first))⟩
  have reached := chain.le
  refine ⟨element, length, ⟨chain, ?_, ?_⟩, lower, upper, size ▸ fits⟩
  · rw [← same element reached]
    exact at_element.head
  · rw [← same (element + 1) (by omega)]
    exact at_element.size

/-- The values in a chain are that of its first element and those of the rest. -/
theorem fittingValue_next {pkt : List Byte} {start place : Nat} {id elen : Byte}
    (head : pkt[start]? = some id) (size : pkt[start + 1]? = some elen)
    (fits : start + 2 + elen.toNat + 4 ≤ pkt.length) :
    FittingValue pkt start place ↔
      (id = 0 ∧ start + 2 ≤ place ∧ place < start + 2 + elen.toNat) ∨
        FittingValue pkt (start + 2 + elen.toNat) place := by
  constructor
  · intro value
    obtain ⟨element, length, at_element, lower, upper, bound⟩ := value
    cases at_element.chain with
    | here =>
        have found := at_element.size
        rw [size] at found
        cases head.symm.trans at_element.head
        cases found
        exact Or.inl ⟨rfl, lower, upper⟩
    | next again same later =>
        cases size.symm.trans same
        exact Or.inr ⟨element, length, ⟨later, at_element.head, at_element.size⟩, lower, upper,
          bound⟩
  · intro value
    cases value with
    | inl first =>
        obtain ⟨rfl, lower, upper⟩ := first
        exact ⟨start, elen.toNat, ⟨.here, head, by rw [size]; rfl⟩, lower, upper, fits⟩
    | inr rest =>
        obtain ⟨element, length, at_element, lower, upper, bound⟩ := rest
        exact ⟨element, length, ⟨.next head size at_element.chain, at_element.head,
          at_element.size⟩, lower, upper, bound⟩

/-- Nothing fits behind an element that does not. -/
theorem not_fittingValue {pkt : List Byte} {start place : Nat} {elen : Byte}
    (size : pkt[start + 1]? = some elen)
    (short : pkt.length < start + 2 + elen.toNat + 4) : ¬ FittingValue pkt start place := by
  intro value
  obtain ⟨element, length, at_element, lower, upper, fits⟩ := value
  cases at_element.chain with
  | here =>
      have found := at_element.size
      rw [size] at found
      cases found
      omega
  | next again same later =>
      cases size.symm.trans same
      have reached := later.le
      omega

/-- The loop overwrites the values that fit and nothing else. -/
theorem rewriteSsid_spec (pkt : List Byte) (ie ieLen : Nat)
    (whole : ie + ieLen + 4 = pkt.length) :
    ∃ out, rewriteSsid pkt ie ieLen = some out ∧ out.length = pkt.length ∧
      ∀ place, (FittingValue pkt ie place → out[place]? = some 88) ∧
        (¬ FittingValue pkt ie place → out[place]? = pkt[place]?) := by
  fun_induction rewriteSsid pkt ie ieLen with
  | case1 pkt ie ieLen enough id elen size head long =>
      refine ⟨pkt, rfl, rfl, fun place => ⟨fun value => ?_, fun _ => rfl⟩⟩
      exact absurd value (not_fittingValue size (by omega))
  | case2 pkt ie ieLen enough id elen size head short name ih =>
      have fits : ie + 2 + (List.replicate elen.toNat (88 : Byte)).length ≤ pkt.length := by
        rw [List.length_replicate]
        omega
      have length := length_writeAt fits
      have read := getElem?_writeAt fits
      rw [store_eq fits, Option.bind_some]
      rw [List.length_replicate] at read
      generalize writeAt pkt (ie + 2) (List.replicate elen.toNat 88) = between at length read ih ⊢
      obtain ⟨out, rewritten, same, places⟩ := ih between (by omega)
      refine ⟨out, rewritten, same.trans length, ?_⟩
      have behind : ∀ place, ie + 2 + elen.toNat ≤ place → between[place]? = pkt[place]? := by
        intro place after
        rw [read place, if_neg (by omega)]
      have values : ∀ place, FittingValue between (ie + 2 + elen.toNat) place ↔
          FittingValue pkt (ie + 2 + elen.toNat) place :=
        fun place => ⟨fun value => value.congr length behind,
          fun value => value.congr length.symm fun place after => (behind place after).symm⟩
      intro place
      rw [fittingValue_next head size (by omega), ← values place]
      constructor
      · intro value
        by_cases later : FittingValue between (ie + 2 + elen.toNat) place
        · exact (places place).1 later
        · obtain ⟨-, lower, upper⟩ := value.resolve_right later
          rw [(places place).2 later, read place, if_pos ⟨lower, upper⟩,
            List.getElem?_replicate, if_pos (by omega)]
      · intro other
        have later := fun value => other (Or.inr value)
        have outside := fun inside => other (Or.inl ⟨name.1, inside⟩)
        rw [(places place).2 later, read place, if_neg outside]
  | case3 pkt ie ieLen enough id elen size head short other ih =>
      obtain ⟨out, rewritten, same, places⟩ := ih (by omega)
      refine ⟨out, rewritten, same, fun place => ?_⟩
      rw [fittingValue_next head size (by omega)]
      have empty : ¬ (id = 0 ∧ ie + 2 ≤ place ∧ place < ie + 2 + elen.toNat) := by
        intro inside
        exact other ⟨inside.1, by omega⟩
      rw [or_iff_right empty]
      exact places place
  | case4 pkt ie ieLen enough beyond =>
      exact (beyond pkt[ie] pkt[ie + 1] (List.getElem?_eq_getElem _)
        (List.getElem?_eq_getElem _)).elim
  | case5 pkt ie ieLen few =>
      refine ⟨pkt, rfl, rfl, fun place => ⟨fun value => ?_, fun _ => rfl⟩⟩
      have bound := value.le
      omega

end Loop

section Packets

theorem isBroadcastMac_congr {pkt other : List Byte} {mac : Nat}
    (same : ∀ place, mac ≤ place → place < mac + 6 → pkt[place]? = other[place]?) :
    isBroadcastMac pkt mac = isBroadcastMac other mac := by
  rw [Bool.eq_iff_iff, isBroadcastMac, isBroadcastMac, List.all_eq_true, List.all_eq_true]
  apply forall₂_congr
  intro index member
  have bound := List.mem_range.mp member
  rw [same (mac + index) (by omega) (by omega)]

theorem clearAddress_spec {pkt : List Byte} {mac : Nat} (fits : mac + 6 ≤ pkt.length) :
    ∃ out, clearAddress pkt mac = some out ∧ out.length = pkt.length ∧
      ∀ place, out[place]? = if mac + 3 ≤ place ∧ place < mac + 6 then some 0 else pkt[place]? := by
  have inside : mac + 3 + ([0, 0, 0] : List Byte).length ≤ pkt.length := fits
  refine ⟨_, store_eq inside, length_writeAt inside, fun place => ?_⟩
  have read : (writeAt pkt (mac + 3) [0, 0, 0])[place]? =
      if mac + 3 ≤ place ∧ place < mac + 6 then [(0 : Byte), 0, 0][place - (mac + 3)]?
      else pkt[place]? := getElem?_writeAt inside place
  rw [read]
  by_cases tail : mac + 3 ≤ place ∧ place < mac + 6
  · obtain ⟨index, rfl⟩ := Nat.exists_eq_add_of_le tail.1
    have few : index < 3 := by omega
    rw [if_pos tail, if_pos tail, Nat.add_sub_cancel_left]
    interval_cases index <;> rfl
  · rw [if_neg tail, if_neg tail]

theorem clearUnlessBroadcast_spec {pkt : List Byte} {mac : Nat} (fits : mac + 6 ≤ pkt.length) :
    ∃ out, clearUnlessBroadcast pkt mac = some out ∧ out.length = pkt.length ∧
      ∀ place, out[place]? =
        if isBroadcastMac pkt mac = false ∧ mac + 3 ≤ place ∧ place < mac + 6 then some 0
        else pkt[place]? := by
  rw [clearUnlessBroadcast]
  cases broadcast : isBroadcastMac pkt mac with
  | true => exact ⟨pkt, rfl, rfl, fun place => by simp⟩
  | false =>
      obtain ⟨out, cleared, length, places⟩ := clearAddress_spec fits
      exact ⟨out, cleared, length, fun place => by simp [places]⟩

theorem variableOffset_le {subtype : Half} {offset : Nat}
    (known : variableOffset subtype = some offset) : 24 ≤ offset := by
  rw [variableOffset] at known
  split_ifs at known <;> cases known <;> decide

/-- Of the four kinds one is the frame's. -/
theorem rewriteKinds {hdr : PacketHeader} {itLen offset : Nat} {subtype : Half}
    (known : variableOffset subtype = some offset) (pkt : List Byte)
    (next : List Byte → Option (List Byte)) :
    ((rewriteKind assocReq assocReqVariable hdr itLen 0 subtype pkt).bind fun pkt =>
      (rewriteKind probeReq probeReqVariable hdr itLen 0 subtype pkt).bind fun pkt =>
      (rewriteKind probeResp probeRespVariable hdr itLen 0 subtype pkt).bind fun pkt =>
      (rewriteKind beacon beaconVariable hdr itLen 0 subtype pkt).bind next) =
    (rewriteSsid pkt (itLen + offset) (elementsLength hdr offset itLen)).bind next := by
  rw [variableOffset] at known
  split_ifs at known with first second third fourth
  all_goals
    cases known
    subst subtype
    simp [rewriteKind, assocReq, probeReq, probeResp, beacon]

theorem elementsLength_eq {hdr : PacketHeader} {offset itLen : Nat}
    (long : itLen + offset + 4 ≤ hdr.caplen.toNat) :
    itLen + offset + elementsLength hdr offset itLen + 4 = hdr.caplen.toNat := by
  have bound := hdr.caplen.isLt
  rw [elementsLength, Int.emod_eq_of_lt (by omega) (by omega)]
  omega

/-- What is cleared: the source address also if it is the broadcast address. -/
def Cleared (pkt : List Byte) (mlme place : Nat) : Prop :=
  (mlme + saOffset + 3 ≤ place ∧ place < mlme + saOffset + 6) ∨ AddressTail pkt mlme place

theorem AddressTail.bounds {pkt : List Byte} {mlme place : Nat}
    (tail : AddressTail pkt mlme place) : mlme + 7 ≤ place ∧ place < mlme + 22 := by
  obtain ⟨offset, member, -, lower, upper⟩ := tail
  simp only [addressOffsets, daOffset, saOffset, bssidOffset, List.mem_cons, List.not_mem_nil,
    or_false] at member
  omega

theorem Cleared.bounds {pkt : List Byte} {mlme place : Nat} (cleared : Cleared pkt mlme place) :
    mlme + 7 ≤ place ∧ place < mlme + 22 := by
  cases cleared with
  | inl source =>
      rw [saOffset] at source
      omega
  | inr tail => exact tail.bounds

theorem cleared_iff {pkt : List Byte} {mlme place : Nat} :
    Cleared pkt mlme place ↔
      (mlme + saOffset + 3 ≤ place ∧ place < mlme + saOffset + 6) ∨
      (isBroadcastMac pkt (mlme + daOffset) = false ∧ mlme + daOffset + 3 ≤ place ∧
        place < mlme + daOffset + 6) ∨
      (isBroadcastMac pkt (mlme + bssidOffset) = false ∧ mlme + bssidOffset + 3 ≤ place ∧
        place < mlme + bssidOffset + 6) := by
  simp only [Cleared, AddressTail, addressOffsets, List.mem_cons, List.not_mem_nil, or_false,
    exists_eq_or_imp, exists_eq_left]
  tauto

/-- The bytes of the packet that is written. -/
structure Written (mlme start : Nat) (pkt out : List Byte) : Prop where
  length : out.length = pkt.length
  name : ∀ {place : Nat}, FittingValue pkt start place → out[place]? = some 88
  address : ∀ {place : Nat}, Cleared pkt mlme place → out[place]? = some 0
  rest : ∀ {place : Nat}, ¬ FittingValue pkt start place → ¬ Cleared pkt mlme place →
    out[place]? = pkt[place]?

theorem anonymizePacket_spec {hdr : PacketHeader} {pkt : List Byte} {mlme start : Nat}
    (frame : Frame hdr pkt mlme start) :
    ∃ out, anonymizePacket hdr pkt = some out ∧ Written mlme start pkt out := by
  obtain ⟨fc, offset, control, type, known, rfl⟩ := frame.control
  obtain ⟨itLen, radiotap, rfl⟩ := Option.map_eq_some_iff.mp frame.radiotap
  have least : 24 ≤ offset := variableOffset_le known
  have long := frame.long
  have rewriting := elementsLength_eq (frame.captured.symm ▸ long)
  obtain ⟨first, rewritten, firstLength, values⟩ := rewriteSsid_spec pkt _ _
    (rewriting.trans frame.captured)
  obtain ⟨second, sa, secondLength, source⟩ := @clearAddress_spec first
    (itLen.toNat + saOffset) (by rw [saOffset]; omega)
  obtain ⟨third, da, thirdLength, destination⟩ := @clearUnlessBroadcast_spec second
    (itLen.toNat + daOffset) (by rw [daOffset]; omega)
  obtain ⟨fourth, bssid, fourthLength, network⟩ := @clearUnlessBroadcast_spec third
    (itLen.toNat + bssidOffset) (by rw [bssidOffset]; omega)
  refine ⟨fourth, ?_, ?_⟩
  · simp only [anonymizePacket, radiotap, control, type, Option.bind_eq_bind, Option.bind_some]
    rw [rewriteKinds known, rewritten, Option.bind_some, sa, Option.bind_some, da]
    exact bssid
  · have before : ∀ place, place < itLen.toNat + offset → first[place]? = pkt[place]? := by
      intro place above
      apply (values place).2
      intro value
      have behind := value.le
      omega
    have daSame : isBroadcastMac second (itLen.toNat + daOffset) =
        isBroadcastMac pkt (itLen.toNat + daOffset) := by
      apply isBroadcastMac_congr
      intro place lower upper
      rw [daOffset] at lower upper
      rw [source, saOffset, if_neg (by omega), before place (by omega)]
    have bssidSame : isBroadcastMac third (itLen.toNat + bssidOffset) =
        isBroadcastMac pkt (itLen.toNat + bssidOffset) := by
      apply isBroadcastMac_congr
      intro place lower upper
      rw [bssidOffset] at lower upper
      rw [destination, daOffset, if_neg (by omega), source, saOffset, if_neg (by omega),
        before place (by omega)]
    have read : ∀ place, fourth[place]? = _ := fun place => by
      rw [network place, bssidSame, destination place, daSame, source place]
    refine ⟨by omega, fun value => ?_, fun cleared => ?_, fun kept whole => ?_⟩
    all_goals rw [read]
    · have behind := value.le.1
      rw [bssidOffset, daOffset, saOffset, if_neg (by omega), if_neg (by omega), if_neg (by omega)]
      exact (values _).1 value
    · rw [cleared_iff] at cleared
      split_ifs with third second first
      · rfl
      · rfl
      · rfl
      · exact absurd cleared (by tauto)
    · rw [cleared_iff] at whole
      rw [if_neg fun inside => whole (Or.inr (Or.inr inside)),
        if_neg fun inside => whole (Or.inr (Or.inl inside)),
        if_neg fun inside => whole (Or.inl inside)]
      exact (values _).2 kept

end Packets

section Pairs

variable {left right : List Byte} {mlme start : Nat}

theorem Alike.symm (alike : Alike mlme start left right) : Alike mlme start right left :=
  ⟨alike.length.symm, fun place differ => (alike.differ place differ.symm).symm⟩

theorem Alike.same (alike : Alike mlme start left right) {place : Nat}
    (plain : ¬ Sensitive left mlme start place) : left[place]? = right[place]? := by
  by_contra differ
  exact plain (alike.differ place differ).1

theorem SsidValue.le {pkt : List Byte} {place : Nat} (value : SsidValue pkt start place) :
    start + 2 ≤ place := by
  obtain ⟨element, length, at_element, lower, -⟩ := value
  have reached := at_element.chain.le
  omega

/-- The bytes at which an element begins are in no value. -/
theorem Chain.not_ssidValue {pkt : List Byte} {element : Nat} (chain : Chain pkt start element) :
    ¬ SsidValue pkt start element ∧ ¬ SsidValue pkt start (element + 1) := by
  have outside : ∀ place, element ≤ place → place < element + 2 → ¬ SsidValue pkt start place := by
    intro place lower upper value
    obtain ⟨other, length, at_other, after, inside⟩ := value
    have behind := at_other.chain.apart chain (by omega) at_other.size
    omega
  exact ⟨outside element (by omega) (by omega), outside (element + 1) (by omega) (by omega)⟩

theorem Alike.chain (alike : Alike mlme start left right) (behind : mlme + 22 ≤ start)
    {element : Nat} (chain : Chain left start element) :
    left[element]? = right[element]? ∧ left[element + 1]? = right[element + 1]? := by
  have reached := chain.le
  have values := Chain.not_ssidValue chain
  constructor
  · apply alike.same
    rintro (value | tail)
    · exact values.1 value
    · have bounds := tail.bounds
      omega
  · apply alike.same
    rintro (value | tail)
    · exact values.2 value
    · have bounds := tail.bounds
      omega

theorem Alike.elementAt (alike : Alike mlme start left right) (behind : mlme + 22 ≤ start)
    {element length : Nat} {id : Byte} (at_element : ElementAt left start id element length) :
    ElementAt right start id element length := by
  obtain ⟨first, second⟩ := alike.chain behind at_element.chain
  refine ⟨at_element.chain.congr fun place chain _ => alike.chain behind chain, ?_, ?_⟩
  · rw [← first]
    exact at_element.head
  · rw [← second]
    exact at_element.size

theorem Alike.fittingValue (alike : Alike mlme start left right) (behind : mlme + 22 ≤ start)
    {place : Nat} (value : FittingValue left start place) : FittingValue right start place := by
  obtain ⟨element, length, at_element, lower, upper, fits⟩ := value
  exact ⟨element, length, alike.elementAt behind at_element, lower, upper, alike.length ▸ fits⟩

theorem AddressTail.offset {pkt : List Byte} {place offset : Nat} (tail : AddressTail pkt mlme place)
    (member : offset ∈ addressOffsets) (lower : mlme + offset ≤ place)
    (upper : place < mlme + offset + 6) : isBroadcastMac pkt (mlme + offset) = false := by
  obtain ⟨other, among, narrow, first, last⟩ := tail
  simp only [addressOffsets, daOffset, saOffset, bssidOffset, List.mem_cons, List.not_mem_nil,
    or_false] at member among
  have same : other = offset := by omega
  exact same ▸ narrow

theorem Alike.broadcast (alike : Alike mlme start left right) (behind : mlme + 22 ≤ start)
    {offset : Nat} (member : offset ∈ addressOffsets)
    (broadcast : isBroadcastMac left (mlme + offset) = true) :
    isBroadcastMac right (mlme + offset) = true := by
  have bound : offset ≤ 16 := by
    simp only [addressOffsets, daOffset, saOffset, bssidOffset, List.mem_cons, List.not_mem_nil,
      or_false] at member
    omega
  rw [← broadcast]
  symm
  apply isBroadcastMac_congr
  intro place lower upper
  apply alike.same
  intro sensitive
  cases sensitive with
  | inl value =>
      have after := value.le
      omega
  | inr tail =>
      have narrow := tail.offset member lower upper
      rw [broadcast] at narrow
      cases narrow

/-- An address is the broadcast address in both frames or in none. -/
theorem Alike.isBroadcastMac_eq (alike : Alike mlme start left right) (behind : mlme + 22 ≤ start)
    {offset : Nat} (member : offset ∈ addressOffsets) :
    isBroadcastMac left (mlme + offset) = isBroadcastMac right (mlme + offset) := by
  rw [Bool.eq_iff_iff]
  exact ⟨alike.broadcast behind member, alike.symm.broadcast behind member⟩

theorem Alike.cleared (alike : Alike mlme start left right) (behind : mlme + 22 ≤ start)
    {place : Nat} (cleared : Cleared left mlme place) : Cleared right mlme place := by
  cases cleared with
  | inl source => exact Or.inl source
  | inr tail =>
      obtain ⟨offset, member, narrow, lower, upper⟩ := tail
      rw [alike.isBroadcastMac_eq behind member] at narrow
      exact Or.inr ⟨offset, member, narrow, lower, upper⟩

theorem Frame.behind {hdr : PacketHeader} {pkt : List Byte} (frame : Frame hdr pkt mlme start) :
    mlme + 24 ≤ start := by
  obtain ⟨fc, offset, -, -, known, rfl⟩ := frame.control
  have least := variableOffset_le known
  omega

theorem readHalf_congr {pkt other : List Byte} {offset : Nat} (low : pkt[offset]? = other[offset]?)
    (high : pkt[offset + 1]? = other[offset + 1]?) : readHalf pkt offset = readHalf other offset := by
  rw [readHalf, readHalf, low, high]

/-- What is neither in an address nor behind the fixed fields is the same. -/
theorem Alike.header (alike : Alike mlme start left right) (behind : mlme + 22 ≤ start)
    {place : Nat} (before : place < mlme + 7) : left[place]? = right[place]? := by
  apply alike.same
  intro sensitive
  cases sensitive with
  | inl value =>
      have after := value.le
      omega
  | inr tail =>
      have bounds := tail.bounds
      omega

/-- A frame that is like another one is of the same kind. -/
theorem Alike.frame {hdr : PacketHeader} (alike : Alike mlme start left right)
    (frame : Frame hdr left mlme start) : Frame hdr right mlme start := by
  have behind := frame.behind
  have same : ∀ place < mlme + 7, left[place]? = right[place]? :=
    fun place before => alike.header (by omega) before
  obtain ⟨fc, offset, control, rest⟩ := frame.control
  refine ⟨frame.captured.trans alike.length, ?_, ⟨fc, offset, ?_, rest⟩, alike.length ▸ frame.long⟩
  · rw [← readHalf_congr (same 2 (by omega)) (same 3 (by omega))]
    exact frame.radiotap
  · rw [← readHalf_congr (same mlme (by omega)) (same (mlme + 1) (by omega))]
    exact control

end Pairs

section Main

variable {hdr : PacketHeader} {left right out : List Byte} {mlme start : Nat}

/-- Nothing else has changed, unless the source is the broadcast address. -/
theorem Written.unchanged_iff {pkt : List Byte} (written : Written mlme start pkt out)
    (behind : mlme + 24 ≤ start) :
    Unchanged mlme start pkt out ↔ isBroadcastMac pkt (mlme + saOffset) = false := by
  constructor
  · intro unchanged
    by_contra broadcast
    rw [Bool.not_eq_false] at broadcast
    have zero : out[mlme + saOffset + 3]? = some 0 :=
      written.address (Or.inl ⟨by omega, by omega⟩)
    have plain : ¬ Sensitive pkt mlme start (mlme + saOffset + 3) := by
      intro sensitive
      cases sensitive with
      | inl value =>
          have after := value.le
          rw [saOffset] at after
          omega
      | inr tail =>
          have narrow := tail.offset (show saOffset ∈ addressOffsets by decide) (by omega)
            (by omega)
          rw [broadcast] at narrow
          cases narrow
    have one := List.all_eq_true.mp broadcast 3 (by decide)
    rw [← unchanged _ plain, zero] at one
    cases of_decide_eq_true one
  · intro narrow place plain
    apply written.rest
    · intro value
      exact plain (Or.inl value.ssidValue)
    · intro cleared
      cases cleared with
      | inl source => exact plain (Or.inr ⟨saOffset, by decide, narrow, source⟩)
      | inr tail => exact plain (Or.inr tail)

/-- Two packets are the same if the names that differ have been overwritten. -/
theorem Written.eq_iff (alike : Alike mlme start left right) (behind : mlme + 24 ≤ start)
    {other : List Byte} (first : Written mlme start left out)
    (second : Written mlme start right other) :
    out = other ↔ ∀ place, start ≤ place → left[place]? ≠ right[place]? →
      FittingValue left start place := by
  have fitting : ∀ place, FittingValue left start place ↔ FittingValue right start place :=
    fun place => ⟨alike.fittingValue (by omega), alike.symm.fittingValue (by omega)⟩
  have cleared : ∀ place, Cleared left mlme place ↔ Cleared right mlme place :=
    fun place => ⟨alike.cleared (by omega), alike.symm.cleared (by omega)⟩
  constructor
  · rintro rfl place after differ
    by_contra unfit
    have whole : ¬ Cleared left mlme place := by
      intro inside
      have bounds := inside.bounds
      omega
    apply differ
    rw [← first.rest unfit whole]
    exact second.rest (unfit ∘ (fitting place).mpr) (whole ∘ (cleared place).mpr)
  · intro names
    apply List.ext_getElem?
    intro place
    by_cases value : FittingValue left start place
    · rw [first.name value, second.name ((fitting place).mp value)]
    · by_cases address : Cleared left mlme place
      · rw [first.address address, second.address ((cleared place).mp address)]
      · rw [first.rest value address,
          second.rest (value ∘ (fitting place).mpr) (address ∘ (cleared place).mpr)]
        by_contra differ
        cases (alike.differ place differ).1 with
        | inl name =>
            have after := name.le
            exact value (names place (by omega) differ)
        | inr tail => exact address (Or.inr tail)

theorem anonymizePacket_eq_iff (frame : Frame hdr left mlme start)
    (alike : Alike mlme start left right) :
    anonymizePacket hdr left = anonymizePacket hdr right ↔
      ∀ place, start ≤ place → left[place]? ≠ right[place]? → FittingValue left start place := by
  obtain ⟨out, done, written⟩ := anonymizePacket_spec frame
  obtain ⟨other, also, rewritten⟩ := anonymizePacket_spec (alike.frame frame)
  rw [done, also, Option.some_inj, written.eq_iff alike frame.behind rewritten]

/-- Files of which each packet differs in such bytes only are written as one file. -/
theorem anonymizePcap_eq {first second : List (PacketHeader × List Byte)}
    (pairs : List.Forall₂ (fun left right => left.1 = right.1 ∧ ∃ mlme start,
      Frame left.1 left.2 mlme start ∧ Alike mlme start left.2 right.2 ∧
      ∀ place, start ≤ place → left.2[place]? ≠ right.2[place]? →
        FittingValue left.2 start place) first second) :
    anonymizePcap first = anonymizePcap second := by
  rw [anonymizePcap, anonymizePcap]
  induction pairs with
  | nil => rfl
  | cons pair _ ih =>
      obtain ⟨header, mlme, start, frame, alike, names⟩ := pair
      have same := (anonymizePacket_eq_iff frame alike).mpr names
      rw [List.mapM_cons, List.mapM_cons, ih, same, header]

/-- Frames that differ in names and addresses only are written as one packet, in which nothing else
has changed, exactly if the names that differ end before the last four bytes and the source is not
the broadcast address. -/
theorem anonymizePacket_alike_iff (frame : Frame hdr left mlme start)
    (alike : Alike mlme start left right) :
    (∃ out, anonymizePacket hdr left = some out ∧ anonymizePacket hdr right = some out ∧
      Unchanged mlme start left out ∧ Unchanged mlme start right out) ↔
    (∀ place, start ≤ place → left[place]? ≠ right[place]? → FittingValue left start place) ∧
      isBroadcastMac left (mlme + saOffset) = false := by
  have behind := frame.behind
  obtain ⟨out, done, written⟩ := anonymizePacket_spec frame
  obtain ⟨other, also, rewritten⟩ := anonymizePacket_spec (alike.frame frame)
  rw [← written.eq_iff alike behind rewritten, ← written.unchanged_iff behind, done, also]
  constructor
  · rintro ⟨packet, first, second, unchanged, -⟩
    cases first
    cases second
    exact ⟨rfl, unchanged⟩
  · rintro ⟨rfl, unchanged⟩
    refine ⟨out, rfl, rfl, unchanged, ?_⟩
    rw [rewritten.unchanged_iff behind, ← alike.isBroadcastMac_eq (by omega) (by decide)]
    exact (written.unchanged_iff behind).mp unchanged

/-- A probe request. -/
def probe (station : Byte) (elements : List Byte) : List Byte :=
  [0, 0, 8, 0, 0, 0, 0, 0] ++ [0x40, 0, 0, 0] ++ List.replicate 6 0xff ++ [2, 0, 0, 0, 0, station] ++
    List.replicate 6 0xff ++ [0, 0] ++ elements

theorem lt_of_differ {place : Nat} (length : left.length = right.length)
    (apart : left[place]? ≠ right[place]?) : place < left.length := by
  by_contra beyond
  rw [List.getElem?_eq_none (by omega), List.getElem?_eq_none (by omega)] at apart
  exact apart rfl

theorem alike_of_differ (places : List Nat) (length : left.length = right.length)
    (differ : ∀ place < left.length, left[place]? ≠ right[place]? → place ∈ places)
    (sensitive : ∀ place ∈ places,
      Sensitive left mlme start place ∧ Sensitive right mlme start place) :
    Alike mlme start left right :=
  ⟨length, fun place apart => sensitive place (differ place (lt_of_differ length apart) apart)⟩

theorem sensitive_probe {station length : Byte} {value : List Byte} {place : Nat}
    (inside : 34 ≤ place ∧ place < 34 + length.toNat ∨ place = 23) :
    Sensitive (probe station (0 :: length :: value)) 8 32 place := by
  cases inside with
  | inl name => exact Or.inl ⟨32, length.toNat, ⟨.here, rfl, rfl⟩, name.1, name.2⟩
  | inr address =>
      subst address
      exact Or.inr ⟨saOffset, by decide, rfl, by decide, by decide⟩

theorem frame_probe {station : Byte} {elements : List Byte} {seconds micros : Nat} {caplen len : Word}
    (captured : caplen.toNat = elements.length + 32) (long : 4 ≤ elements.length) :
    Frame ⟨seconds, micros, caplen, len⟩ (probe station elements) 8 32 := by
  have size : (probe station elements).length = elements.length + 32 := by
    simp only [probe, List.length_append, List.length_cons, List.length_nil, List.length_replicate]
    omega
  exact ⟨captured.trans size.symm, rfl, ⟨0x40, 24, rfl, rfl, rfl, rfl⟩, by omega⟩

theorem anonymizePacket_alike_probe :
    ∃ out, anonymizePacket ⟨0, 0, 40, 40⟩ (probe 1 [0, 2, 97, 98, 9, 9, 9, 9]) = some out ∧
      anonymizePacket ⟨0, 0, 40, 40⟩ (probe 2 [0, 2, 97, 99, 9, 9, 9, 9]) = some out ∧
      Unchanged 8 32 (probe 1 [0, 2, 97, 98, 9, 9, 9, 9]) out ∧
      Unchanged 8 32 (probe 2 [0, 2, 97, 99, 9, 9, 9, 9]) out := by
  have alike : Alike 8 32 (probe 1 [0, 2, 97, 98, 9, 9, 9, 9])
      (probe 2 [0, 2, 97, 99, 9, 9, 9, 9]) := by
    refine alike_of_differ [23, 35] rfl (by decide) ?_
    intro place member
    have inside : 34 ≤ place ∧ place < 34 + 2 ∨ place = 23 := by
      simp only [List.mem_cons, List.not_mem_nil, or_false] at member
      omega
    exact ⟨sensitive_probe inside, sensitive_probe inside⟩
  refine (anonymizePacket_alike_iff (frame_probe rfl (by decide)) alike).mpr ⟨?_, rfl⟩
  intro place after differ
  have only : ∀ place < (probe 1 [0, 2, 97, 98, 9, 9, 9, 9]).length, 32 ≤ place →
      (probe 1 [0, 2, 97, 98, 9, 9, 9, 9])[place]? ≠ (probe 2 [0, 2, 97, 99, 9, 9, 9, 9])[place]? →
        place = 35 := by decide
  cases only place (lt_of_differ alike.length differ) after differ
  exact ⟨32, 2, ⟨.here, rfl, rfl⟩, by decide, by decide, by decide⟩

/-- A name that is cut short is written as it is. -/
theorem anonymizePacket_cut :
    ∃ hdr left right mlme start, Frame hdr left mlme start ∧ Alike mlme start left right ∧
      anonymizePacket hdr left ≠ anonymizePacket hdr right := by
  have frame : ∀ elements : List Byte, elements.length = 7 →
      Frame ⟨0, 0, 39, 39⟩ (probe 1 elements) 8 32 :=
    fun elements size => frame_probe (by rw [size]; rfl) (by omega)
  have alike : Alike 8 32 (probe 1 [0, 8, 97, 98, 99, 100, 101])
      (probe 1 [0, 8, 97, 98, 99, 100, 102]) := by
    refine alike_of_differ [38] rfl (by decide) ?_
    intro place member
    have inside : 34 ≤ place ∧ place < 34 + 8 ∨ place = 23 := by
      rw [List.mem_singleton.mp member]
      decide
    exact ⟨sensitive_probe inside, sensitive_probe inside⟩
  refine ⟨_, _, _, _, _, frame _ rfl, alike, ?_⟩
  intro same
  have names := (anonymizePacket_eq_iff (frame _ rfl) alike).mp same
  have short : ¬ FittingValue (probe 1 [0, 8, 97, 98, 99, 100, 101]) 32 38 :=
    @not_fittingValue _ 32 38 8 rfl (by decide)
  exact short (names 38 (by decide) (by decide))

end Main

end Gfiber.Taxonomy
