import Gfiber.Logupload.Anonymize

/-! No address is left in a line, and what the pass does to the line. A
replacement may take in the last two letters of the id written before it, since
the pass goes on from the id and letters up to F are hex digits. -/

set_option autoImplicit false

namespace Gfiber.Logupload

open Lib

section Specification

def separators : List Byte := [ascii ':', ascii '-', ascii '_']

/-- What a place of an address may hold. -/
def fits (sep : Byte) (place : Nat) (byte : Byte) : Prop :=
  if place % 3 = 2 then byte = sep else isxdigit byte = true

def MacAt (text : List Byte) (start : Nat) : Prop :=
  ∃ sep ∈ separators, ∀ place < macAddrLen, ∃ byte, text[start + place]? = some byte ∧
    fits sep place byte

/-- Six pairs of hex digits with the same separator. -/
structure MacAddress (bytes : List Byte) : Prop where
  length_eq : bytes.length = macAddrLen
  pairs : MacAt bytes 0

variable (anonid : List Byte → List Byte)

/-- An address that becomes its id, or a run of addresses each of which begins
with the last one or two letters of the id of the one before. -/
inductive Chain : Nat → List Byte → List Byte → Prop where
  | last {address : List Byte} (mac : MacAddress address) : Chain 1 address (anonid address)
  | overlap {count kept : Nat} {address more letters : List Byte} (mac : MacAddress address)
      (shared : kept = 4 ∨ kept = 5)
      (rest : Chain count ((anonid address).drop kept ++ more) letters) :
      Chain (count + 1) (address ++ more) ((anonid address).take kept ++ letters)

/-- A text with some pieces of it replaced, in `count` replacements. -/
inductive Anonymized : Nat → List Byte → List Byte → Prop where
  | nil : Anonymized 0 [] []
  | kept {count : Nat} (byte : Byte) {line out : List Byte} (rest : Anonymized count line out) :
      Anonymized count (byte :: line) (byte :: out)
  | piece {first count : Nat} {piece letters line out : List Byte}
      (chain : Chain anonid first piece letters) (rest : Anonymized count line out) :
      Anonymized (first + count) (piece ++ line) (letters ++ out)

/-- One pass from left to right, on the text alone. -/
inductive Pass : Nat → List Byte → List Byte → Prop where
  | short {line : List Byte} (short : line.length < macAddrLen) : Pass 0 line line
  | keep {count : Nat} {byte : Byte} {line out : List Byte} (other : ¬ MacAt (byte :: line) 0)
      (rest : Pass count line out) : Pass count (byte :: line) (byte :: out)
  | replace {count : Nat} {address line out : List Byte} (mac : MacAddress address)
      (rest : Pass count (anonid address ++ line) out) : Pass (count + 1) (address ++ line) out

/-- Six upper-case letters. -/
structure IsAnonid (id : List Byte) : Prop where
  length_eq : id.length = 6
  letters : ∀ letter ∈ id, isupper letter

end Specification

section Windows

theorem fits_separator {sep byte : Byte} {place : Nat} (fit : fits sep place byte)
    (third : place % 3 = 2) : byte = sep := by
  rwa [fits, if_pos third] at fit

theorem fits_digit {sep byte : Byte} {place : Nat} (other : place % 3 ≠ 2) :
    fits sep place byte ↔ isxdigit byte := by
  rw [fits, if_neg other]

theorem not_isupper_of_mem_separators {sep : Byte} (member : sep ∈ separators) :
    isupper sep = false := by
  have none_upper : separators.all fun sep => !isupper sep := by decide
  simpa using List.all_eq_true.mp none_upper sep member

theorem MacAt.append {line : List Byte} {start : Nat} (mac : MacAt line start)
    (more : List Byte) : MacAt (line ++ more) start := by
  obtain ⟨sep, member, places⟩ := mac
  refine ⟨sep, member, fun place inside => ?_⟩
  obtain ⟨byte, found, fit⟩ := places place inside
  have bound : start + place < line.length := (List.getElem?_eq_some_iff.mp found).1
  exact ⟨byte, by rw [List.getElem?_append_left bound, found], fit⟩

theorem macAt_append_left {before line : List Byte} {start : Nat} :
    MacAt (before ++ line) (before.length + start) ↔ MacAt line start := by
  simp only [MacAt, Nat.add_assoc, List.getElem?_append_right (Nat.le_add_right _ _),
    Nat.add_sub_cancel_left]

theorem not_macAt_of_letter {text : List Byte} {start place : Nat} {letter : Byte}
    (inside : place < macAddrLen) (third : place % 3 = 2)
    (found : text[start + place]? = some letter) (upper : isupper letter) :
    ¬ MacAt text start := by
  rintro ⟨sep, member, places⟩
  obtain ⟨byte, same, fit⟩ := places place inside
  have equal : letter = byte := Option.some.inj (found.symm.trans same)
  rw [equal, fits_separator fit third, not_isupper_of_mem_separators member] at upper
  cases upper

theorem MacAt.inside {line : List Byte} {start : Nat} (mac : MacAt line start) :
    start + macAddrLen ≤ line.length := by
  obtain ⟨sep, member, places⟩ := mac
  obtain ⟨byte, found, fit⟩ := places 16 (by decide)
  have bound : start + 16 < line.length := (List.getElem?_eq_some_iff.mp found).1
  simp only [macAddrLen]
  omega

end Windows

section Passes

variable {anonid : List Byte → List Byte} (lettered : ∀ address, IsAnonid (anonid address))
include lettered

/-- An id in the place of an address makes no address out of what is before it:
three of its letters reach a separator's place, and two stand where the digits
of the old address stood. -/
theorem MacAt.of_replaced {before address line : List Byte} {start : Nat}
    (mac : MacAddress address) (earlier : start < before.length)
    (after : MacAt (before ++ (anonid address ++ line)) start) :
    MacAt (before ++ (address ++ line)) start := by
  have id := lettered address
  have letter (place : Nat) (inside : place < 6) :
      ∃ byte, (before ++ (anonid address ++ line))[before.length + place]? = some byte ∧
        isupper byte := by
    have bound : place < (anonid address).length := by rw [id.length_eq]; exact inside
    refine ⟨(anonid address)[place], ?_, id.letters _ (List.getElem_mem bound)⟩
    rw [List.getElem?_append_right (by omega), Nat.add_sub_cancel_left,
      List.getElem?_append_left bound, List.getElem?_eq_getElem bound]
  by_cases near : before.length ≤ start + 14
  · -- the first separator's place at or after the id
    obtain ⟨place, low, high, third⟩ : ∃ place, before.length ≤ start + place ∧
        start + place < before.length + 3 ∧ place % 3 = 2 :=
      ⟨(before.length - start + 3) / 3 * 3 - 1, by omega, by omega, by omega⟩
    obtain ⟨byte, found, upper⟩ := letter (start + place - before.length) (by omega)
    rw [Nat.add_sub_cancel' low] at found
    exact absurd after (not_macAt_of_letter (by simp only [macAddrLen]; omega) third found upper)
  · obtain ⟨sep, member, places⟩ := after
    obtain ⟨_, _, digits⟩ := mac.pairs
    refine ⟨sep, member, fun place inside => ?_⟩
    by_cases old : start + place < before.length
    · obtain ⟨byte, found, fit⟩ := places place inside
      rw [List.getElem?_append_left old] at found
      exact ⟨byte, by rw [List.getElem?_append_left old, found], fit⟩
    · simp only [macAddrLen] at inside
      have few : start + place - before.length < 2 := by omega
      obtain ⟨byte, found, fit⟩ := digits (start + place - before.length)
        (by simp only [macAddrLen]; omega)
      rw [Nat.zero_add] at found
      have bound : start + place - before.length < address.length :=
        (List.getElem?_eq_some_iff.mp found).1
      refine ⟨byte, ?_, ?_⟩
      · rw [List.getElem?_append_right (by omega), List.getElem?_append_left bound, found]
      · rw [fits_digit (by omega)] at fit ⊢
        exact fit

/-- Nothing before the cursor is an address, and so nothing is at the end. -/
theorem Pass.clean {count : Nat} {line out : List Byte} (pass : Pass anonid count line out)
    {before : List Byte} (seen : ∀ start < before.length, ¬ MacAt (before ++ line) start)
    (start : Nat) : ¬ MacAt (before ++ out) start := by
  induction pass generalizing before with
  | @short line short =>
      intro mac
      have inside := mac.inside
      rw [List.length_append] at inside
      exact seen start (by omega) mac
  | @keep count byte line out other rest ih =>
      have now : ∀ start < (before ++ [byte]).length, ¬ MacAt (before ++ [byte] ++ line) start := by
        intro start earlier
        rw [List.append_assoc, List.singleton_append]
        rw [List.length_append, List.length_singleton] at earlier
        rcases Nat.lt_succ_iff_lt_or_eq.mp earlier with before_byte | rfl
        · exact seen start before_byte
        · rw [← Nat.add_zero before.length, macAt_append_left]
          exact other
      simpa using ih now
  | @replace count address line out mac rest ih =>
      apply ih
      intro start earlier after
      exact seen start earlier (after.of_replaced lettered mac earlier)

omit lettered in
theorem Chain.starts {count : Nat} {piece letters : List Byte}
    (chain : Chain anonid count piece letters) : MacAt piece 0 := by
  cases chain with
  | last mac => exact mac.pairs
  | overlap mac => exact mac.pairs.append _

omit lettered in
theorem Anonymized.uncons {count : Nat} {byte : Byte} {line out : List Byte}
    (text : Anonymized anonid count (byte :: line) out) :
    (∃ rest, out = byte :: rest ∧ Anonymized anonid count line rest) ∨
      ∃ first later piece letters more rest, count = first + later ∧
        piece ++ more = byte :: line ∧ out = letters ++ rest ∧
        Chain anonid first piece letters ∧ Anonymized anonid later more rest := by
  generalize whole : byte :: line = joined at text
  cases text with
  | nil => cases whole
  | @kept _ byte line out rest =>
      cases whole
      exact .inl ⟨out, rfl, rest⟩
  | piece chain rest => exact .inr ⟨_, _, _, _, _, _, rfl, rfl, rfl, chain, rest⟩

omit lettered in
/-- A letter two places on keeps a byte from starting an address. -/
theorem Anonymized.uncons_of_letter {count : Nat} {byte next letter : Byte}
    {line out : List Byte}
    (text : Anonymized anonid count (byte :: next :: letter :: line) out)
    (upper : isupper letter) :
    ∃ rest, out = byte :: rest ∧ Anonymized anonid count (next :: letter :: line) rest := by
  rcases text.uncons with kept | ⟨_, _, piece, _, more, _, _, joined, _, chain, _⟩
  · exact kept
  · have mac := chain.starts.append more
    rw [joined] at mac
    have place : 2 < macAddrLen := by decide
    exact absurd mac (not_macAt_of_letter place rfl rfl upper)

/-- An address that starts with the last letters of an id prolongs the chain. -/
theorem Anonymized.of_shared {count kept : Nat} {address line out : List Byte}
    (mac : MacAddress address) (shared : kept = 4 ∨ kept = 5)
    (chained : ∃ first later piece letters more rest, count = first + later ∧
      piece ++ more = (anonid address).drop kept ++ line ∧ out = letters ++ rest ∧
      Chain anonid first piece letters ∧ Anonymized anonid later more rest) :
    Anonymized anonid (count + 1) (address ++ line) ((anonid address).take kept ++ out) := by
  obtain ⟨first, later, piece, letters, more, rest, rfl, joined, rfl, chain, text⟩ := chained
  have long : ((anonid address).drop kept).length < piece.length := by
    have inside := chain.starts.inside
    have six := (lettered address).length_eq
    simp only [macAddrLen] at inside
    rw [List.length_drop]
    omega
  obtain ⟨tail, rfl, rfl⟩ : ∃ tail, piece = (anonid address).drop kept ++ tail ∧
      line = tail ++ more := by
    rcases List.append_eq_append_iff.mp joined with ⟨tail, same, _⟩ | ⟨tail, same, rest⟩
    · rw [same, List.length_append] at long
      omega
    · exact ⟨tail, same, rest⟩
  have whole := Anonymized.piece (.overlap mac shared chain) text
  rw [Nat.add_right_comm] at whole
  simpa only [List.append_assoc] using whole

theorem Anonymized.replace {count : Nat} {address line out : List Byte}
    (mac : MacAddress address) (text : Anonymized anonid count (anonid address ++ line) out) :
    Anonymized anonid (count + 1) (address ++ line) out := by
  obtain ⟨six, upper⟩ := lettered address
  obtain ⟨a, b, c, d, e, f, letters⟩ : ∃ a b c d e f, anonid address = [a, b, c, d, e, f] := by
    match anonid address, six with
    | [a, b, c, d, e, f], _ => exact ⟨a, b, c, d, e, f, rfl⟩
  simp only [letters, List.mem_cons, List.not_mem_nil, or_false, forall_eq_or_imp,
    forall_eq] at upper
  obtain ⟨_, _, third, fourth, fifth, sixth⟩ := upper
  rw [letters] at text
  simp only [List.cons_append, List.nil_append] at text
  -- the first four letters stay whatever comes after the id
  obtain ⟨_, rfl, from_b⟩ := text.uncons_of_letter third
  obtain ⟨_, rfl, from_c⟩ := from_b.uncons_of_letter fourth
  obtain ⟨_, rfl, from_d⟩ := from_c.uncons_of_letter fifth
  obtain ⟨_, rfl, from_e⟩ := from_d.uncons_of_letter sixth
  rcases from_e.uncons with ⟨_, rfl, from_f⟩ | chained
  · rcases from_f.uncons with ⟨_, rfl, from_line⟩ | chained
    · have whole := Anonymized.piece (.last mac) from_line
      simpa [letters, Nat.add_comm] using whole
    · have longer := Anonymized.of_shared lettered mac (.inr rfl) (by
        simpa [letters] using chained)
      simpa [letters] using longer
  · have longer := Anonymized.of_shared lettered mac (.inl rfl) (by
      simpa [letters] using chained)
    simpa [letters] using longer

theorem Pass.anonymized {count : Nat} {line out : List Byte}
    (pass : Pass anonid count line out) : Anonymized anonid count line out := by
  induction pass with
  | @short line short =>
      clear short
      induction line with
      | nil => exact .nil
      | cons byte line ih => exact .kept byte ih
  | keep _ _ ih => exact .kept _ ih
  | replace mac _ ih => exact ih.replace lettered mac

end Passes

section Refinement

theorem isupper_getD_hard : ∀ index < 26, isupper (hard.getD index 0) := by decide

theorem isupper_getD_soft : ∀ index < 7, isupper (soft.getD index 0) := by decide

theorem isupper_trigraph {num : Nat} (small : num < 4096) :
    ∀ letter ∈ trigraph num, isupper letter := by
  have hard_length : hard.length = 26 := rfl
  have soft_length : soft.length = 7 := rfl
  simp only [trigraph, hard_length, soft_length, List.mem_cons, List.not_mem_nil, or_false,
    forall_eq_or_imp, forall_eq]
  exact ⟨isupper_getD_hard _ (by omega), isupper_getD_soft _ (by omega),
    isupper_getD_hard _ (by omega)⟩

theorem isAnonid_getAnonidForMac (hmac : Hmac) (mac : List Byte) :
    IsAnonid (getAnonidForMac hmac mac) := by
  refine ⟨rfl, fun letter member => ?_⟩
  have small (num : Nat) : num &&& 0x0fff < 4096 := Nat.lt_succ_of_le Nat.and_le_right
  rcases List.mem_append.mp member with first | second
  · exact isupper_trigraph (small _) letter first
  · exact isupper_trigraph (small _) letter second

theorem isMacAddr_iff {memory : Memory Byte} {s : Nat} {sep : Byte} :
    isMacAddr memory s sep ↔ ∀ place < macAddrLen, fits sep place (memory (s + place)) := by
  have ranged : (∀ place < 17, fits sep place (memory (s + place))) ↔
      ∀ place ∈ List.range 17, fits sep place (memory (s + place)) := by
    simp only [List.mem_range]
  have listed : List.range 17 = [0, 1, 2, 3, 4, 5, 6, 7, 8, 9, 10, 11, 12, 13, 14, 15, 16] := rfl
  rw [macAddrLen, ranged, listed]
  simp only [isMacAddr, Bool.and_eq_true, decide_eq_true_eq, List.forall_mem_cons, fits,
    Nat.reduceMod, Nat.reduceEqDiff, if_true, if_false, Nat.add_zero]
  tauto

theorem macAt_slice {memory : Memory Byte} {s len : Nat} (long : macAddrLen ≤ len) :
    MacAt (memory.slice s len) 0 ↔ (isMacAddr memory s (ascii ':') ||
      isMacAddr memory s (ascii '-') || isMacAddr memory s (ascii '_')) = true := by
  have cells (sep : Byte) : (∀ place < macAddrLen, ∃ byte,
      (memory.slice s len)[0 + place]? = some byte ∧ fits sep place byte) ↔
      isMacAddr memory s sep := by
    rw [isMacAddr_iff]
    constructor
    · intro places place inside
      obtain ⟨byte, found, fit⟩ := places place inside
      rw [Memory.getElem?_slice, Nat.zero_add, if_pos (by omega)] at found
      exact Option.some.inj found ▸ fit
    · intro places place inside
      refine ⟨_, ?_, places place inside⟩
      rw [Memory.getElem?_slice, Nat.zero_add, if_pos (by omega)]
  simp only [MacAt, cells, separators, List.mem_cons, List.not_mem_nil, or_false,
    exists_eq_or_imp, exists_eq_left, Bool.or_eq_true, or_assoc]

/-- The id stands where the address began and the rest of the line after it. -/
theorem slice_anonymizeMacAddress (hmac : Hmac) (memory : Memory Byte) {s len : Nat}
    (long : macAddrLen ≤ len) :
    (anonymizeMacAddress hmac memory s len).1.slice s (len - 11) =
      getAnonidForMac hmac (memory.slice s macAddrLen) ++
        memory.slice (s + macAddrLen) (len - macAddrLen) := by
  have six := (isAnonid_getAnonidForMac hmac (memory.slice s macAddrLen)).length_eq
  simp only [macAddrLen] at long six
  simp only [anonymizeMacAddress, macAddrLen, Nat.reduceSub]
  generalize getAnonidForMac hmac (memory.slice s 17) = anonid at six
  rw [show len - 11 = 6 + (len - 17) by omega, Memory.slice_add]
  congr 1
  · rw [Memory.slice_congr fun address _ upper => Memory.move_outside (.inl upper), ← six,
      Memory.slice_write]
  · rw [Memory.slice_move _ _ (by omega), Memory.slice_write_outside (.inr (by omega))]

theorem anonymizeMacAddress_outside (hmac : Hmac) (memory : Memory Byte) {s len address : Nat}
    (long : macAddrLen ≤ len) (outside : address < s ∨ s + len ≤ address) :
    (anonymizeMacAddress hmac memory s len).1 address = memory address := by
  have six := (isAnonid_getAnonidForMac hmac (memory.slice s macAddrLen)).length_eq
  simp only [macAddrLen] at long six
  simp only [anonymizeMacAddress, macAddrLen, Nat.reduceSub]
  rw [Memory.move_outside (by omega), Memory.write_outside (by omega)]

/-- The loop makes one pass over the line and touches nothing else. -/
theorem suppressFrom_pass (hmac : Hmac) {passes : Nat} {memory : Memory Byte} {s len : Nat}
    (newLen : Nat) (enough : len < passes) :
    ∃ after count, suppressFrom hmac passes memory s len newLen =
        some (after, newLen - 11 * count) ∧ 11 * count ≤ len ∧
      Pass (getAnonidForMac hmac) count (memory.slice s len) (after.slice s (len - 11 * count)) ∧
      ∀ address, address < s ∨ s + len ≤ address → after address = memory address := by
  induction passes generalizing memory s len newLen with
  | zero => omega
  | succ passes ih =>
      rw [suppressFrom]
      split
      case isFalse short =>
        exact ⟨memory, 0, rfl, by omega, .short (by simpa using short), fun _ _ => rfl⟩
      case isTrue long =>
        have seventeen : 17 ≤ len := long
        split
        case isTrue found =>
          have mac : MacAddress (memory.slice s macAddrLen) :=
            ⟨Memory.length_slice _ _ _, (macAt_slice le_rfl).mpr found⟩
          have text := @slice_anonymizeMacAddress hmac memory s len long
          have frame := @anonymizeMacAddress_outside hmac memory s len
          have offset : (anonymizeMacAddress hmac memory s len).2 = 11 := rfl
          generalize anonymizeMacAddress hmac memory s len = result at text frame offset
          have fewer (whole count : Nat) : whole - 11 - 11 * count = whole - 11 * (count + 1) := by
            omega
          obtain ⟨after, count, returned, small, pass, outside⟩ :=
            @ih result.1 s (len - 11) (newLen - 11) (by omega)
          refine ⟨after, count + 1, ?_, by omega, ?_, ?_⟩
          · rw [fewer] at returned
            rw [← returned, ← offset]
          · rw [text] at pass
            have whole := Pass.replace mac pass
            rwa [← Memory.slice_add, Nat.add_sub_cancel' long, fewer] at whole
          · intro address away
            rw [outside address (by omega), frame long away]
        case isFalse other =>
          obtain ⟨after, count, returned, small, pass, outside⟩ :=
            @ih memory (s + 1) (len - 1) newLen (by omega)
          have first : after s = memory s := outside s (.inl (by omega))
          refine ⟨after, count, returned, by omega, ?_, ?_⟩
          · rw [show len - 11 * count = len - 1 - 11 * count + 1 by omega, Memory.slice, first]
            rw [← macAt_slice long] at other
            rw [show len = len - 1 + 1 by omega, Memory.slice] at other ⊢
            exact .keep other pass
          · intro address away
            exact outside address (by omega)

end Refinement

section Lines

variable (hmac : Hmac) (memory : Memory Byte) (line len : Nat)

theorem suppressMacAddresses_pass :
    ∃ after count, suppressMacAddresses hmac memory line len = some (after, len - 11 * count) ∧
      11 * count ≤ len ∧
      Pass (getAnonidForMac hmac) count (memory.slice line len)
        (after.slice line (len - 11 * count)) ∧
      ∀ address, address < line ∨ line + len ≤ address → after address = memory address :=
  suppressFrom_pass hmac len (Nat.lt_succ_self len)

/-- The line that is left has no address in it, and is the old one with pieces
replaced by ids and parts of ids. -/
theorem suppressMacAddresses_suppresses :
    ∃ after count, suppressMacAddresses hmac memory line len = some (after, len - 11 * count) ∧
      11 * count ≤ len ∧
      (∀ window, window <:+: after.slice line (len - 11 * count) → ¬ MacAddress window) ∧
      Anonymized (getAnonidForMac hmac) count (memory.slice line len)
        (after.slice line (len - 11 * count)) ∧
      ∀ address, IsAnonid (getAnonidForMac hmac address) := by
  obtain ⟨after, count, returned, small, pass, _⟩ :=
    suppressMacAddresses_pass hmac memory line len
  have lettered := isAnonid_getAnonidForMac hmac
  refine ⟨after, count, returned, small, ?_, pass.anonymized lettered, lettered⟩
  rintro window ⟨before, rest, whole⟩ mac
  have clean := pass.clean lettered (by simp : ∀ start < ([] : List Byte).length, _) before.length
  rw [List.nil_append, ← whole, List.append_assoc, ← Nat.add_zero before.length,
    macAt_append_left] at clean
  exact clean (mac.pairs.append rest)

end Lines

section Overlaps

/-- A text with pieces of it replaced each by an id of its own. -/
inductive Spliced : Nat → List Byte → List Byte → Prop where
  | nil : Spliced 0 [] []
  | kept {count : Nat} (byte : Byte) {line out : List Byte} (rest : Spliced count line out) :
      Spliced count (byte :: line) (byte :: out)
  | piece {count : Nat} (piece : List Byte) {id line out : List Byte} (six : IsAnonid id)
      (rest : Spliced count line out) : Spliced (count + 1) (piece ++ line) (id ++ out)

theorem Spliced.length_le {count : Nat} {line out : List Byte}
    (spliced : Spliced count line out) : 6 * count ≤ out.length := by
  induction spliced with
  | nil => decide
  | kept byte _ ih => exact ih.trans (Nat.le_succ _)
  | piece piece six _ ih =>
      rw [List.length_append, six.length_eq]
      omega

def blankHmac : Hmac := fun _ => ⟨0, 0, 0⟩

def longAddress : List Byte := bytesOf "00:11:22:33:44:55:66:77:88:99:aa"

def holding (bytes : List Byte) : Memory Byte := fun address => bytes.getD address 0

/-- The id of the first six pairs is `BABBAB`, and with its last two letters
the other five pairs are an address again: `BABBBABBAB` is left. -/
theorem suppressMacAddresses_overlaps :
    ¬ ∃ after count, suppressMacAddresses blankHmac (holding longAddress) 0 32 =
        some (after, 32 - 11 * count) ∧ 11 * count ≤ 32 ∧
      Spliced count ((holding longAddress).slice 0 32) (after.slice 0 (32 - 11 * count)) := by
  rintro ⟨after, count, returned, small, spliced⟩
  have ten : (suppressMacAddresses blankHmac (holding longAddress) 0 32).map Prod.snd =
      some 10 := by decide +kernel
  rw [returned] at ten
  have remaining : 32 - 11 * count = 10 := Option.some.inj ten
  have long := spliced.length_le
  rw [Memory.length_slice] at long
  omega

end Overlaps

end Gfiber.Logupload
