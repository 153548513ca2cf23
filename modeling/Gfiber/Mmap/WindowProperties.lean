import Gfiber.Mmap.Script

/-! Which lines stay in the windows of the slots that they name. -/

set_option autoImplicit false

namespace Gfiber.Mmap

open Lib

section Windows

/-- All bytes are in the window of a slot that is mapped, and the window is in the file. -/
structure Touch.Confined (touch : Touch) : Prop where
  mapped : touch.slot.map ≠ 0 ∧ touch.slot.map ≠ mapFailed
  window : touch.slot.addr.toNat + touch.slot.length.toNat ≤ touch.slot.fileLength.toNat
  inside : ∀ k, k < touch.width →
    (touch.offset + BitVec.ofNat 64 k).toNat < touch.slot.length.toNat

/-- What the check of `do_open` leaves. -/
def Slot.Checked (slot : Slot) : Prop :=
  (slot.addr + slot.length).toNat ≤ slot.fileLength.toNat

/-- Neither has `mmap` failed, nor has the sum that is checked wrapped around. -/
def Slot.Usable (slot : Slot) : Prop :=
  slot.map ≠ mapFailed ∧ slot.addr.toNat + slot.length.toNat < 2 ^ 64

/-- Some bytes from an address on are before the end of a slot. -/
def Slot.Fits (slot : Slot) (addr : BitVec 64) (bytes : Nat) : Prop :=
  slot.Usable ∧ addr.toNat + bytes ≤ slot.length.toNat

variable {slot : Slot}

theorem Slot.Checked.window_iff (checked : slot.Checked) :
    slot.addr.toNat + slot.length.toNat ≤ slot.fileLength.toNat ↔
      slot.addr.toNat + slot.length.toNat < 2 ^ 64 := by
  have size := slot.fileLength.isLt
  rw [Slot.Checked, BitVec.toNat_add] at checked
  constructor
  · intro window
    omega
  · intro whole
    rw [Nat.mod_eq_of_lt whole] at checked
    exact checked

theorem inside_iff (offset : BitVec 64) {width : Nat} (some_byte : 0 < width)
    (small : width < 2 ^ 64) (slot : Slot) :
    (∀ k, k < width → (offset + BitVec.ofNat 64 k).toNat < slot.length.toNat) ↔
      offset.toNat + width ≤ slot.length.toNat := by
  have size := slot.length.isLt
  have place (k : Nat) (before : k < width) (whole : offset.toNat + k < 2 ^ 64) :
      (offset + BitVec.ofNat 64 k).toNat = offset.toNat + k := by
    rw [BitVec.toNat_add, BitVec.toNat_ofNat, Nat.mod_eq_of_lt (show k < 2 ^ 64 by omega),
      Nat.mod_eq_of_lt whole]
  constructor
  · intro inside
    have first := inside 0 some_byte
    rw [place 0 some_byte (by omega)] at first
    -- the byte behind the window would be touched
    by_contra beyond
    have before : slot.length.toNat - offset.toNat < width := by omega
    have behind := inside _ before
    rw [place _ before (by omega)] at behind
    omega
  · intro fits k before
    rw [place k before (by omega)]
    omega

theorem confined_iff (checked : slot.Checked) (opened : slot.map ≠ 0) (offset : BitVec 64)
    {width : Nat} (some_byte : 0 < width) (small : width < 2 ^ 64) :
    Touch.Confined ⟨slot, offset, width⟩ ↔ slot.Fits offset width := by
  have window := checked.window_iff
  have inside := inside_iff offset some_byte small slot
  constructor
  · intro confined
    exact ⟨⟨confined.mapped.2, window.mp confined.window⟩, inside.mp confined.inside⟩
  · intro fits
    exact ⟨⟨opened, fits.1.1⟩, window.mpr fits.1.2, inside.mpr fits.2⟩

theorem WordLen.bounds (wordlen : WordLen) : 0 < wordlen.val ∧ wordlen.val ≤ 8 := by
  have known := wordlen.property
  omega

end Windows

section Dumps

variable {slot : Slot} {addr : BitVec 64} {wordlen : WordLen} {count i : Nat} {touch : Touch}

/-- The word of a dump with some index. -/
def dumpWord (slot : Slot) (addr : BitVec 64) (wordlen : WordLen) (n : Nat) : Touch :=
  ⟨slot, addr + BitVec.ofNat 64 (n * wordlen.val), wordlen.val⟩

theorem mem_takeWhile_range {bound j : Nat} :
    j ∈ (List.range bound).takeWhile (i + · < count) ↔ j < bound ∧ i + j < count := by
  constructor
  · intro member
    exact ⟨List.mem_range.mp ((List.takeWhile_prefix _).subset member),
      of_decide_eq_true (List.mem_takeWhile_imp (p := fun k => decide (i + k < count)) member)⟩
  · intro both
    obtain ⟨rest, length⟩ := Nat.exists_eq_add_of_lt both.1
    have all : ∀ k ∈ List.range (j + 1), decide (i + k < count) = true := by
      intro k member
      have before := List.mem_range.mp member
      exact decide_eq_true (by omega)
    rw [length, show j + rest + 1 = j + 1 + rest by omega, List.range_add,
      List.takeWhile_append_of_pos all]
    exact List.mem_append_left _ (List.mem_range.mpr (Nat.lt_succ_self j))

theorem mem_dumpLine :
    touch ∈ dumpLine slot addr wordlen count i ↔
      ∃ n, i ≤ n ∧ n < i + 16 / wordlen.val ∧ n < count ∧ touch = dumpWord slot addr wordlen n := by
  rw [dumpLine, List.mem_map]
  constructor
  · intro found
    obtain ⟨j, member, same⟩ := found
    obtain ⟨before, inside⟩ := mem_takeWhile_range.mp member
    exact ⟨i + j, Nat.le_add_right i j, Nat.add_lt_add_left before i, inside, same.symm⟩
  · intro found
    obtain ⟨n, least, most, inside, same⟩ := found
    refine ⟨n - i, mem_takeWhile_range.mpr ⟨by omega, by omega⟩, ?_⟩
    rw [same, dumpWord, Nat.add_sub_cancel' least]

/-- A dump reads the words before its count. -/
theorem mem_doHexdump :
    touch ∈ doHexdump slot addr wordlen count i ↔
      ∃ n, i ≤ n ∧ n < count ∧ touch = dumpWord slot addr wordlen n := by
  have bounds := wordlen.bounds
  have perline : 0 < 16 / wordlen.val := Nat.div_pos (by omega) bounds.1
  induction i using doHexdump.induct wordlen count with
  | case1 i more _ ih =>
      have later : touch ∈ doHexdump slot addr wordlen count (i + 16 / wordlen.val) ↔ _ := ih
      rw [doHexdump, if_pos more, List.mem_append, mem_dumpLine, later]
      constructor
      · intro either
        cases either with
        | inl here =>
            obtain ⟨n, least, _, inside, same⟩ := here
            exact ⟨n, least, inside, same⟩
        | inr later =>
            obtain ⟨n, least, inside, same⟩ := later
            exact ⟨n, by omega, inside, same⟩
      · intro found
        obtain ⟨n, least, inside, same⟩ := found
        by_cases here : n < i + 16 / wordlen.val
        · exact .inl ⟨n, least, here, inside, same⟩
        · exact .inr ⟨n, by omega, inside, same⟩
  | case2 i done =>
      rw [doHexdump, if_neg done]
      refine iff_of_false List.not_mem_nil fun found => ?_
      obtain ⟨n, least, inside, _⟩ := found
      omega

/-- All words of a dump are in the window just if the last one ends in it. -/
theorem dump_fits_iff :
    (∀ n, n < count → slot.Fits (addr + BitVec.ofNat 64 (n * wordlen.val)) wordlen.val) ↔
      (count ≠ 0 → slot.Fits addr (count * wordlen.val)) := by
  have size := slot.length.isLt
  have bounds := wordlen.bounds
  have place (n : Nat) (whole : addr.toNat + n * wordlen.val < 2 ^ 64) :
      (addr + BitVec.ofNat 64 (n * wordlen.val)).toNat = addr.toNat + n * wordlen.val := by
    rw [BitVec.toNat_add, BitVec.toNat_ofNat, Nat.add_mod_mod, Nat.mod_eq_of_lt whole]
  constructor
  · intro fit some_word
    refine ⟨(fit 0 (Nat.pos_of_ne_zero some_word)).1, ?_⟩
    induction count with
    | zero => exact absurd rfl some_word
    | succ count ih =>
        have last := (fit count (Nat.lt_succ_self count)).2
        have whole : addr.toNat + count * wordlen.val < 2 ^ 64 := by
          by_cases first : count = 0
          · rw [first, Nat.zero_mul]
            exact addr.isLt
          · have before := ih (fun n inside => fit n (Nat.lt_succ_of_lt inside)) first
            omega
        rw [place count whole] at last
        rw [Nat.succ_mul]
        omega
  · intro fits n before
    obtain ⟨usable, ends⟩ := fits (by omega)
    have several : (n + 1) * wordlen.val ≤ count * wordlen.val := Nat.mul_le_mul_right _ before
    rw [Nat.succ_mul] at several
    refine ⟨usable, ?_⟩
    rw [place n (by omega)]
    omega

end Dumps

section Registers

variable {areg creg touch : Touch} {readings : Readings}

/-- The device is not busy before the tries are used up. -/
def Answers (readings : Readings) : Prop :=
  ∃ i, i < maxTries ∧ readings i &&& cmdBusy = 0

theorem waitForBits_answered (creg : Touch) (readings : Readings) (tries next : Nat) :
    (waitForBits creg readings tries next).answered = true ↔
      ∃ i, next ≤ i ∧ i < next + tries ∧ readings i &&& cmdBusy = 0 := by
  induction tries generalizing next with
  | zero =>
      refine iff_of_false (by simp [waitForBits]) fun found => ?_
      obtain ⟨i, least, most, _⟩ := found
      omega
  | succ tries ih =>
      rw [waitForBits]
      by_cases ready : readings next &&& cmdBusy = 0
      · rw [if_pos ready]
        exact iff_of_true rfl ⟨next, Nat.le_refl _, by omega, ready⟩
      · rw [if_neg ready]
        change (waitForBits creg readings tries (next + 1)).answered = true ↔ _
        rw [ih]
        constructor
        · intro found
          obtain ⟨i, least, most, free⟩ := found
          exact ⟨i, by omega, by omega, free⟩
        · intro found
          obtain ⟨i, least, most, free⟩ := found
          have other : i ≠ next := fun same => ready (same ▸ free)
          exact ⟨i, by omega, by omega, free⟩

theorem waitForBits_only {tries next : Nat}
    (member : touch ∈ (waitForBits creg readings tries next).touches) : touch = creg := by
  induction tries generalizing next with
  | zero => cases member
  | succ tries ih =>
      rw [waitForBits] at member
      split at member
      case isTrue => exact List.mem_singleton.mp member
      case isFalse =>
        cases member with
        | head => rfl
        | tail _ later => exact ih later

theorem waitForBits_reads (tries next : Nat) :
    creg ∈ (waitForBits creg readings (tries + 1) next).touches := by
  rw [waitForBits]
  split
  case isTrue => exact List.mem_singleton_self creg
  case isFalse => exact List.mem_cons_self

theorem exchange_spec (areg creg : Touch) (readings : Readings) (next : Nat) :
    (∀ touch ∈ (exchange areg creg readings next).touches, touch = creg ∨
        touch = areg ∧ (waitForBits creg readings maxTries next).answered = true) ∧
      creg ∈ (exchange areg creg readings next).touches ∧
      ((waitForBits creg readings maxTries next).answered = true →
        areg ∈ (exchange areg creg readings next).touches) ∧
      ((exchange areg creg readings next).answered = true →
        (waitForBits creg readings maxTries next).answered = true) := by
  have reads : creg ∈ (waitForBits creg readings maxTries next).touches :=
    waitForBits_reads 99 next
  by_cases idle : (waitForBits creg readings maxTries next).answered = true
  case neg =>
    rw [exchange, if_neg idle]
    exact ⟨fun touch member => .inl (waitForBits_only member), reads,
      fun answered => absurd answered idle, fun answered => absurd answered idle⟩
  rw [exchange, if_pos idle]
  refine ⟨fun touch member => ?_, ?_, fun _ => ?_, fun _ => idle⟩
  · rw [List.mem_append, List.mem_append, List.mem_append] at member
    obtain ⟨⟨waited | written⟩ | again⟩ | result := member
    · exact .inl (waitForBits_only waited)
    · cases written with
      | head => exact .inr ⟨rfl, idle⟩
      | tail _ command => exact .inl (List.mem_singleton.mp command)
    · exact .inl (waitForBits_only again)
    · split at result
      case isTrue => exact .inl (List.mem_singleton.mp result)
      case isFalse => cases result
  · exact List.mem_append_left _ (List.mem_append_left _ (List.mem_append_left _ reads))
  · refine List.mem_append_left _ (List.mem_append_left _ (List.mem_append_right _ ?_))
    exact List.mem_cons_self

theorem doMread_spec (areg creg : Touch) (readings : Readings) (count next : Nat) :
    (∀ touch ∈ doMread areg creg readings count next, touch = creg ∨
        touch = areg ∧ (waitForBits creg readings maxTries next).answered = true) ∧
      (count ≠ 0 → creg ∈ doMread areg creg readings count next ∧
        ((waitForBits creg readings maxTries next).answered = true →
          areg ∈ doMread areg creg readings count next)) := by
  induction count generalizing next with
  | zero => exact ⟨fun touch member => (by cases member), fun none_left => absurd rfl none_left⟩
  | succ count ih =>
      obtain ⟨only, command, address, answered⟩ := exchange_spec areg creg readings next
      rw [doMread]
      refine ⟨fun touch member => ?_, fun _ => ⟨List.mem_append_left _ command,
        fun idle => List.mem_append_left _ (address idle)⟩⟩
      cases List.mem_append.mp member with
      | inl once => exact only touch once
      | inr later =>
          split at later
          case isFalse => cases later
          case isTrue done =>
            cases (ih _).1 touch later with
            | inl same => exact .inl same
            | inr written => exact .inr ⟨written.1, answered done⟩

theorem answers_iff (creg : Touch) (readings : Readings) :
    (waitForBits creg readings maxTries 0).answered = true ↔ Answers readings := by
  rw [waitForBits_answered, Answers, Nat.zero_add]
  simp only [Nat.zero_le, true_and]

/-- What holds of all touches of `mread`, holds of its registers as far as they are used. -/
theorem forall_doMread (property : Touch → Prop) (areg creg : Touch) (readings : Readings)
    (count : Nat) :
    (∀ touch ∈ doMread areg creg readings count 0, property touch) ↔
      (count ≠ 0 → property creg ∧ (Answers readings → property areg)) := by
  obtain ⟨only, uses⟩ := doMread_spec areg creg readings count 0
  rw [answers_iff] at only uses
  constructor
  · intro all some_command
    obtain ⟨command, address⟩ := uses some_command
    exact ⟨all creg command, fun answers => all areg (address answers)⟩
  · intro both touch member
    have some_command : count ≠ 0 := by
      intro empty
      rw [empty] at member
      cases member
    obtain ⟨command, address⟩ := both some_command
    cases only touch member with
    | inl same => exact same ▸ command
    | inr written => exact written.1 ▸ address written.2

/-- `mwrite` uses the registers like one command of `mread`. -/
theorem forall_doMwrite (property : Touch → Prop) (areg creg : Touch) (readings : Readings) :
    (∀ touch ∈ doMwrite areg creg readings, property touch) ↔
      property creg ∧ (Answers readings → property areg) := by
  obtain ⟨only, command, address, _⟩ := exchange_spec areg creg readings 0
  rw [answers_iff] at only address
  constructor
  · intro all
    exact ⟨all creg command, fun answers => all areg (address answers)⟩
  · intro both touch member
    cases only touch member with
    | inl same => exact same ▸ both.1
    | inr written => exact written.1 ▸ both.2 written.2

end Registers

section Requests

variable {slots : Slots} {av : List (List Byte)} {request : Request}

/-- The slot that a request touches. -/
def Request.slot : Request → Option (Fin maxSlots)
  | .idle => none
  | .openFile _ _ _ _ => none
  | .close _ => none
  | .read slot _ _ => some slot
  | .write slot _ _ _ => some slot
  | .dump slot _ _ _ => some slot
  | .mread slot _ _ _ _ _ _ => some slot
  | .mwrite slot _ _ _ _ _ _ => some slot

/-- A request touches an open slot. -/
def Request.Open (slots : Slots) (request : Request) : Prop :=
  ∀ slot, request.slot = some slot → (slots slot).map ≠ 0

theorem asSlot_open {str : List Byte} {slot : Fin maxSlots}
    (found : asSlot slots str true = some slot) : (slots slot).map ≠ 0 := by
  obtain ⟨value, _, rest⟩ := Option.bind_eq_some_iff.mp found
  split at rest
  case isFalse => cases rest
  case isTrue small =>
    simp only [if_true] at rest
    split at rest
    case isTrue => cases rest
    case isFalse opened =>
      cases rest
      exact opened

theorem helped_open {command : Command}
    (plain : ∀ {request}, command slots av = some request → request.Open slots)
    (given : helped command slots av = some request) : request.Open slots := by
  cases av with
  | nil => exact plain given
  | cons name rest =>
      cases rest with
      | nil => exact plain given
      | cons first rest =>
          by_cases help : first = bytesOf "help"
          · rw [helped, if_pos help] at given
            cases given
            exact fun slot touched => by cases touched
          · rw [helped, if_neg help] at given
            exact plain given

/-- What is asked for after the slot has been found open. -/
theorem bind_open {str : List Byte} {rest : Fin maxSlots → Option Request}
    (same : ∀ slot request, rest slot = some request → ∀ other, request.slot = some other →
      other = slot)
    (given : (asSlot slots str true >>= rest) = some request) : request.Open slots := by
  obtain ⟨slot, found, later⟩ := Option.bind_eq_some_iff.mp given
  intro other touched
  rw [same slot request later other touched]
  exact asSlot_open found

theorem bind_same {Value : Type} {found : Option Value} {rest : Value → Option Request}
    {slot : Fin maxSlots}
    (same : ∀ value, ∀ request, rest value = some request →
      ∀ other, request.slot = some other → other = slot) :
    ∀ request, (found >>= rest) = some request → ∀ other, request.slot = some other →
      other = slot := by
  intro request given other touched
  obtain ⟨value, _, later⟩ := Option.bind_eq_some_iff.mp given
  exact same value request later other touched

theorem pure_same {asked : Request} {slot : Fin maxSlots} (named : asked.slot = some slot) :
    ∀ request, (pure asked : Option Request) = some request →
      ∀ other, request.slot = some other → other = slot := by
  intro request given other touched
  cases given
  exact Option.some.inj (touched.symm.trans named)

theorem cmdRead_open (given : cmdRead slots av = some request) : request.Open slots := by
  refine helped_open (fun plain => ?_) given
  split at plain
  case h_1 =>
    refine bind_open (fun slot => bind_same fun _ => bind_same fun _ => pure_same rfl) plain
  case h_2 => cases plain

theorem cmdWrite_open (given : cmdWrite slots av = some request) : request.Open slots := by
  refine helped_open (fun plain => ?_) given
  split at plain
  case h_1 =>
    exact bind_open
      (fun slot => bind_same fun _ => bind_same fun _ => bind_same fun _ => pure_same rfl) plain
  case h_2 => cases plain

theorem cmdDump_open (given : cmdDump slots av = some request) : request.Open slots := by
  refine helped_open (fun plain => ?_) given
  split at plain
  case h_1 =>
    exact bind_open
      (fun slot => bind_same fun _ => bind_same fun _ => bind_same fun _ => pure_same rfl) plain
  case h_2 => cases plain

theorem cmdMread_open (given : cmdMread slots av = some request) : request.Open slots := by
  refine helped_open (fun plain => ?_) given
  split at plain
  case h_1 =>
    exact bind_open
      (fun slot => bind_same fun _ => bind_same fun _ => bind_same fun _ => bind_same fun _ =>
        bind_same fun _ => bind_same fun _ => pure_same rfl) plain
  case h_2 => cases plain

theorem cmdMwrite_open (given : cmdMwrite slots av = some request) : request.Open slots := by
  refine helped_open (fun plain => ?_) given
  split at plain
  case h_1 =>
    exact bind_open
      (fun slot => bind_same fun _ => bind_same fun _ => bind_same fun _ => bind_same fun _ =>
        bind_same fun _ => bind_same fun _ => pure_same rfl) plain
  case h_2 => cases plain

/-- The other commands touch no slot. -/
theorem cmdOpen_open (given : cmdOpen slots av = some request) : request.Open slots := by
  refine helped_open (fun plain => ?_) given
  split at plain
  case h_1 =>
    obtain ⟨_, _, later⟩ := Option.bind_eq_some_iff.mp plain
    obtain ⟨_, _, later⟩ := Option.bind_eq_some_iff.mp later
    obtain ⟨_, _, later⟩ := Option.bind_eq_some_iff.mp later
    cases later
    exact fun slot touched => by cases touched
  case h_2 => cases plain

theorem cmdClose_open (given : cmdClose slots av = some request) : request.Open slots := by
  refine helped_open (fun plain => ?_) given
  split at plain
  case h_1 =>
    obtain ⟨_, _, later⟩ := Option.bind_eq_some_iff.mp plain
    cases later
    exact fun slot touched => by cases touched
  case h_2 => cases plain

theorem cmdMsleep_open (given : cmdMsleep slots av = some request) : request.Open slots := by
  refine helped_open (fun plain => ?_) given
  split at plain
  case h_1 =>
    obtain ⟨_, _, later⟩ := Option.bind_eq_some_iff.mp plain
    cases later
    exact fun slot touched => by cases touched
  case h_2 => cases plain

theorem cmdEcho_open (given : cmdEcho slots av = some request) : request.Open slots := by
  refine helped_open (fun plain => ?_) given
  cases plain
  exact fun slot touched => by cases touched

theorem cmds_open {name : List Byte} {command : Command} (member : (name, command) ∈ cmds)
    (given : command slots av = some request) : request.Open slots := by
  simp only [cmds, List.mem_cons, Prod.mk.injEq, List.not_mem_nil, or_false] at member
  obtain ⟨_, rfl⟩ | ⟨_, rfl⟩ | ⟨_, rfl⟩ | ⟨_, rfl⟩ | ⟨_, rfl⟩ | ⟨_, rfl⟩ | ⟨_, rfl⟩ | ⟨_, rfl⟩ |
    ⟨_, rfl⟩ := member
  · exact cmdOpen_open given
  · exact cmdClose_open given
  · exact cmdRead_open given
  · exact cmdWrite_open given
  · exact cmdDump_open given
  · exact cmdMsleep_open given
  · exact cmdEcho_open given
  · exact cmdMread_open given
  · exact cmdMwrite_open given

theorem requestOf_open {words : List (List Byte)} (given : requestOf slots words = some request) :
    request.Open slots := by
  rw [requestOf] at given
  split at given
  case h_1 =>
    cases given
    exact fun slot touched => by cases touched
  case h_2 name _ _ =>
    split at given
    case isTrue =>
      cases given
      exact fun slot touched => by cases touched
    case isFalse =>
      obtain ⟨command, found, given⟩ := Option.bind_eq_some_iff.mp given
      obtain ⟨before, after, table, _⟩ := List.lookup_eq_some_iff.mp found
      have member : (name, command) ∈ cmds := by
        rw [table]
        exact List.mem_append_right _ List.mem_cons_self
      exact cmds_open member given

end Requests

section Lines

variable {slots : Slots} {readings : Readings} {request : Request}

/-- What a request touches is before the end of a usable slot. -/
def Request.Fits (slots : Slots) (readings : Readings) : Request → Prop
  | .idle => True
  | .openFile _ _ _ _ => True
  | .close _ => True
  | .read slot addr wordlen => (slots slot).Fits addr wordlen.val
  | .write slot addr wordlen _ => (slots slot).Fits addr wordlen.val
  | .dump slot addr wordlen count =>
      count.toNat ≠ 0 → (slots slot).Fits addr (count.toNat * wordlen.val)
  | .mread slot addrReg cmdReg _ _ _ count =>
      count.toNat ≠ 0 → (slots slot).Fits cmdReg 4 ∧ (Answers readings → (slots slot).Fits addrReg 4)
  | .mwrite slot addrReg cmdReg _ _ _ _ =>
      (slots slot).Fits cmdReg 4 ∧ (Answers readings → (slots slot).Fits addrReg 4)

theorem touches_confined_iff (checked : ∀ slot, (slots slot).Checked) (opened : request.Open slots) :
    (∀ touch ∈ request.touches slots readings, touch.Confined) ↔ request.Fits slots readings := by
  cases request with
  | idle => exact iff_of_true (fun touch member => by cases member) trivial
  | openFile => exact iff_of_true (fun touch member => by cases member) trivial
  | close => exact iff_of_true (fun touch member => by cases member) trivial
  | read slot addr wordlen =>
      have bounds := wordlen.bounds
      have word := confined_iff (checked slot) (opened slot rfl) addr bounds.1 (by omega)
      exact List.forall_mem_singleton.trans word
  | write slot addr wordlen value =>
      have bounds := wordlen.bounds
      have word := confined_iff (checked slot) (opened slot rfl) addr bounds.1 (by omega)
      exact List.forall_mem_singleton.trans word
  | dump slot addr wordlen count =>
      have bounds := wordlen.bounds
      refine Iff.trans ?_ dump_fits_iff
      constructor
      · intro all n before
        have word := all _ (mem_doHexdump.mpr ⟨n, Nat.zero_le n, before, rfl⟩)
        exact (confined_iff (checked slot) (opened slot rfl) _ bounds.1 (by omega)).mp word
      · intro fit touch member
        obtain ⟨n, _, before, same⟩ := mem_doHexdump.mp member
        rw [same]
        exact (confined_iff (checked slot) (opened slot rfl) _ bounds.1 (by omega)).mpr (fit n before)
  | mread slot addrReg cmdReg port dev reg count =>
      have word (addr : BitVec 64) :=
        confined_iff (checked slot) (opened slot rfl) addr (show 0 < 4 by decide) (by decide)
      refine (forall_doMread Touch.Confined _ _ readings _).trans ?_
      rw [register, register, word, word]
      rfl
  | mwrite slot addrReg cmdReg port dev reg value =>
      have word (addr : BitVec 64) :=
        confined_iff (checked slot) (opened slot rfl) addr (show 0 < 4 by decide) (by decide)
      refine (forall_doMwrite Touch.Confined _ _ readings).trans ?_
      rw [register, register, word, word]
      rfl

/-- The null pointer behind the tenth word has no place. -/
theorem stored_iff (words : List (List Byte)) (ac : Nat) :
    (∀ i ∈ storedAt ac words, i < maxArgs) ↔ ac + words.length < maxArgs := by
  induction words generalizing ac with
  | nil => exact List.forall_mem_singleton
  | cons word words ih =>
      rw [storedAt, List.length_cons]
      split
      case isTrue full =>
        rw [List.forall_mem_singleton]
        omega
      case isFalse room =>
        rw [List.forall_mem_cons, ih]
        omega

end Lines

section Runs

/-- The line that is read stores in `av` only, and touches bytes of windows only. -/
def Confined (tool : Tool) : Event → Prop
  | .script _ => True
  | .line opened readings => ∀ text rest, fgets lineSize tool.script = some (text, rest) →
      (∀ i ∈ (processLine tool.slots opened readings text).stored, i < maxArgs) ∧
        ∀ touch ∈ (processLine tool.slots opened readings text).touches, touch.Confined

/-- The line that is read has nine words at most, and what it asks for fits. -/
def Fits (tool : Tool) : Event → Prop
  | .script _ => True
  | .line _ readings => ∀ text rest, fgets lineSize tool.script = some (text, rest) →
      ∀ words, lineOf text = .command words → words.length < maxArgs ∧
        ∀ request, requestOf tool.slots words = some request → request.Fits tool.slots readings

def Tool.Checked (tool : Tool) : Prop :=
  ∀ slot, (tool.slots slot).Checked

theorem confined_line_iff {tool : Tool} (checked : tool.Checked)
    (event : Event) : Confined tool event ↔ Fits tool event := by
  cases event with
  | script => exact Iff.rfl
  | line opened readings =>
      rw [Confined, Fits]
      refine forall_congr' fun text => forall_congr' fun rest => imp_congr_right fun _ => ?_
      rw [processLine]
      cases lineOf text with
      | skipped =>
          refine iff_of_true ⟨?_, ?_⟩ fun words same => ?_
          · exact fun i member => by cases member
          · exact fun touch member => by cases member
          · cases same
      | tooLong =>
          refine iff_of_true ⟨?_, ?_⟩ fun words same => ?_
          · exact fun i member => by cases member
          · exact fun touch member => by cases member
          · cases same
      | command words =>
          have stored := stored_iff words 0
          rw [Nat.zero_add] at stored
          have only (property : List (List Byte) → Prop) :
              (∀ others, Line.command words = .command others → property others) ↔
                property words :=
            ⟨fun all => all words rfl, fun holds others same => by cases same; exact holds⟩
          rw [only]
          dsimp only
          cases asked : requestOf tool.slots words with
          | none =>
              refine and_congr stored (iff_of_true ?_ ?_)
              · exact fun touch member => by cases member
              · exact fun request same => by cases same
          | some request =>
              refine and_congr stored ((touches_confined_iff checked (requestOf_open asked)).trans ?_)
              exact ⟨fun fits other same => by cases same; exact fits, fun all => all request rfl⟩

/-- What holds of all slots, and of each that is opened or closed, holds of all slots afterwards. -/
theorem after_kept {property : Slot → Prop} {slots : Slots} {opened : Opened} {request : Request}
    (kept : ∀ slot, property (slots slot)) (closed : property { Slot.zero with fd := -1 })
    (added : ∀ path target fileAddr length fd fileLength map,
      request = .openFile path target fileAddr length → opened = .mapped fd fileLength map →
      fileAddr + length ≤ fileLength →
      property ⟨path.take 4096, fd, fileLength, map, fileAddr, length⟩) :
    ∀ slot, property (request.after slots opened slot) := by
  have updated {value : Slot} (good : property value) (target : Fin maxSlots) :
      ∀ slot, property (Function.update slots target value slot) := by
    intro slot
    rw [Function.update_apply]
    split
    case isTrue => exact good
    case isFalse => exact kept slot
  cases request with
  | openFile path target fileAddr length =>
      cases opened with
      | cannotOpen => exact kept
      | cannotStat => exact kept
      | mapped fd fileLength map =>
          rw [Request.after, doOpen]
          split
          case isTrue => exact kept
          case isFalse small =>
            split
            case isTrue => exact kept
            case isFalse =>
              have fits : fileAddr + length ≤ fileLength := Nat.not_lt.mp small
              exact updated (added path target fileAddr length fd fileLength map rfl rfl fits) target
  | close target => exact updated closed target
  | idle => exact kept
  | read => exact kept
  | write => exact kept
  | dump => exact kept
  | mread => exact kept
  | mwrite => exact kept

/-- The slots after a step are those before it, or those after the request of its line. -/
theorem step_cases {tool next : Tool} {event : Event} (step : Step tool event next) :
    next.slots = tool.slots ∨ ∃ opened readings text rest words request,
      event = .line opened readings ∧ fgets lineSize tool.script = some (text, rest) ∧
        lineOf text = .command words ∧ requestOf tool.slots words = some request ∧
        next.slots = request.after tool.slots opened := by
  cases step with
  | script => exact .inl rfl
  | @line text rest opened readings read =>
      change (processLine tool.slots opened readings text).slots = _ ∨ _
      cases kind : lineOf text with
      | skipped =>
          rw [processLine, kind]
          exact .inl rfl
      | tooLong =>
          rw [processLine, kind]
          exact .inl rfl
      | command words =>
          cases asked : requestOf tool.slots words with
          | none =>
              rw [processLine, kind]
              dsimp only
              rw [asked]
              exact .inl rfl
          | some request =>
              refine .inr ⟨opened, readings, text, rest, words, request, rfl, read, kind, asked, ?_⟩
              change (processLine tool.slots opened readings text).slots = _
              rw [processLine, kind]
              dsimp only
              rw [asked]

theorem checked_step {tool next : Tool} {event : Event} (checked : tool.Checked)
    (step : Step tool event next) : next.Checked := by
  cases step_cases step with
  | inl same => exact fun slot => same ▸ checked slot
  | inr asked =>
      obtain ⟨opened, _, _, _, _, request, _, _, _, _, after⟩ := asked
      have kept : ∀ slot, (request.after tool.slots opened slot).Checked :=
        after_kept checked (Nat.le_refl 0) fun _ _ _ _ _ _ _ _ _ fits => fits
      exact fun slot => after ▸ kept slot

/-- The file of a line that opens one is mapped, and the window does not wrap around. -/
def OpensWell (tool : Tool) (event : Event) : Prop :=
  ∀ opened readings text rest words path target fileAddr length fd fileLength map,
    event = .line opened readings → fgets lineSize tool.script = some (text, rest) →
    lineOf text = .command words →
    requestOf tool.slots words = some (.openFile path target fileAddr length) →
    opened = .mapped fd fileLength map →
    map ≠ mapFailed ∧ fileAddr.toNat + length.toNat < 2 ^ 64

/-- Where all files are opened well, all slots are usable. -/
theorem usable_run {script : List Byte} {trace : List (Tool × Event)} {finish : Tool}
    (run : Run Step (Tool.start script) trace finish) (well : StepsMeet OpensWell trace) :
    Throughout (fun tool => ∀ slot, (tool.slots slot).Usable) trace finish := by
  have unused (fd : Int) : Slot.Usable { Slot.zero with fd := fd } :=
    ⟨show Slot.zero.map ≠ mapFailed by decide,
      show Slot.zero.addr.toNat + Slot.zero.length.toNat < 2 ^ 64 by decide⟩
  refine run.throughout (fun slot => unused 0) (fun usable met step => ?_) well
  cases step_cases step with
  | inl same => exact fun slot => same ▸ usable slot
  | inr asked =>
      obtain ⟨opened, readings, text, rest, words, request, line, read, kind, given, after⟩ := asked
      rw [after]
      refine after_kept usable (unused (-1)) ?_
      intro path target fileAddr length fd fileLength map same mapped _
      exact met opened readings text rest words path target fileAddr length fd fileLength map line
        read kind (same ▸ given) mapped

/-- In every run, all lines stay in the windows and in `av` just if all lines fit. -/
theorem confined_run_iff {script : List Byte} {trace : List (Tool × Event)} {finish : Tool}
    (run : Run Step (Tool.start script) trace finish) :
    StepsMeet Confined trace ↔ StepsMeet Fits trace := by
  have always : StepsMeet (fun _ _ => True) trace := fun _ _ => trivial
  have start : (Tool.start script).Checked := fun slot => Nat.le_refl 0
  have checked := run.throughout start (fun held _ step => checked_step held step) always
  exact forall_congr' fun entry => forall_congr' fun member =>
    confined_line_iff (checked.1 entry member) entry.2

def firstSlot : Fin maxSlots := ⟨0, by decide⟩

/-- A file of 16 bytes is opened. -/
def openLine (map : BitVec 64) : Event :=
  .line (.mapped 3 16 map) fun _ => 0

def otherLine : Event :=
  .line .cannotOpen fun _ => 0

def openText : List Byte :=
  bytesOf "open 0 f 0 16\n"

def lastText : List Byte :=
  bytesOf "read 0 12 4\n"

def readText : List Byte :=
  bytesOf "read 0 13 4\n"

def wordsText : List Byte :=
  bytesOf "echo 1 2 3 4 5 6 7 8 9\n"

def openTool (map : BitVec 64) (rest : List Byte) : Tool :=
  ⟨(processLine (Tool.start []).slots (.mapped 3 16 map) (fun _ => 0) openText).slots, rest⟩

theorem fgets_last : fgets lineSize lastText = some (lastText, []) := by decide

theorem fgets_openLast : fgets lineSize (openText ++ lastText) = some (openText, lastText) := by
  decide

theorem fgets_openRead : fgets lineSize (openText ++ readText) = some (openText, readText) := by
  decide

theorem fgets_read : fgets lineSize readText = some (readText, []) := by decide

theorem fgets_words : fgets lineSize wordsText = some (wordsText, []) := by decide

def lastTrace : List (Tool × Event) :=
  [(Tool.start (openText ++ lastText), openLine 4096), (openTool 4096 lastText, otherLine)]

theorem words_open :
    lineOf openText = .command (["open", "0", "f", "0", "16"].map bytesOf) := by decide

theorem request_open : requestOf (Tool.start []).slots (["open", "0", "f", "0", "16"].map bytesOf) =
    some (.openFile (bytesOf "f") firstSlot 0 16) := by decide

theorem words_last : lineOf lastText = .command (["read", "0", "12", "4"].map bytesOf) := by decide

theorem request_last :
    requestOf (openTool 4096 lastText).slots (["read", "0", "12", "4"].map bytesOf) =
      some (.read firstSlot 12 ⟨4, by decide⟩) := by decide

/-- Both lines of the script fit. -/
theorem fits_last : StepsMeet Fits lastTrace := by
  intro entry member
  simp only [lastTrace, List.mem_cons, List.not_mem_nil, or_false] at member
  rcases member with rfl | rfl
  · intro text rest read words line
    cases fgets_openLast.symm.trans read
    cases words_open.symm.trans line
    refine ⟨by decide, fun request asked => ?_⟩
    cases request_open.symm.trans asked
    trivial
  · intro text rest read words line
    cases fgets_last.symm.trans read
    cases words_last.symm.trans line
    refine ⟨by decide, fun request asked => ?_⟩
    cases request_last.symm.trans asked
    exact ⟨⟨by decide, by decide⟩, by decide⟩

theorem confined_run_last : StepsMeet Fits lastTrace ∧ StepsMeet Confined lastTrace :=
  ⟨fits_last, (confined_run_iff ((Run.nil.snoc (.line fgets_openLast)).snoc
    (.line fgets_last))).mpr fits_last⟩

/-- The last bytes of a word are read behind the window, a slot that is not mapped is read, and the
pointer behind the tenth word is stored behind `av`. -/
theorem leaves_windows :
    (∃ finish, Run Step (Tool.start (openText ++ readText))
      [(Tool.start (openText ++ readText), openLine 4096),
        (openTool 4096 readText, otherLine)] finish) ∧
    ¬Confined (openTool 4096 readText) otherLine ∧
    (∃ finish, Run Step (Tool.start (openText ++ lastText))
      [(Tool.start (openText ++ lastText), openLine mapFailed),
        (openTool mapFailed lastText, otherLine)] finish) ∧
    ¬Confined (openTool mapFailed lastText) otherLine ∧
    (∃ finish, Run Step (Tool.start wordsText) [(Tool.start wordsText, otherLine)] finish) ∧
    ¬Confined (Tool.start wordsText) otherLine := by
  refine ⟨⟨_, (Run.nil.snoc (.line fgets_openRead)).snoc (.line fgets_read)⟩, fun confined => ?_,
    ⟨_, (Run.nil.snoc (.line fgets_openLast)).snoc (.line fgets_last)⟩, fun confined => ?_,
    ⟨_, Run.nil.snoc (.line fgets_words)⟩, fun confined => ?_⟩
  · have touched : ⟨(openTool 4096 readText).slots firstSlot, 13, 4⟩ ∈
        (processLine (openTool 4096 readText).slots .cannotOpen (fun _ => 0) readText).touches := by
      decide
    have behind := ((confined readText [] fgets_read).2 _ touched).inside 3 (by decide)
    exact absurd behind (by decide)
  · have touched : ⟨(openTool mapFailed lastText).slots firstSlot, 12, 4⟩ ∈
        (processLine (openTool mapFailed lastText).slots .cannotOpen (fun _ => 0) lastText).touches := by
      decide
    have mapped := ((confined lastText [] fgets_last).2 _ touched).mapped.2
    exact absurd mapped (by decide)
  · have stored : 10 ∈
        (processLine (Tool.start wordsText).slots .cannotOpen (fun _ => 0) wordsText).stored := by
      decide
    have element := (confined wordsText [] fgets_words).1 10 stored
    exact absurd element (by decide)

end Runs

end Gfiber.Mmap
