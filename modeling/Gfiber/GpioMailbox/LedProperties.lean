import Gfiber.GpioMailbox.Mailbox

/-! Which patterns are read from a file, whatever was read before. -/

set_option autoImplicit false

namespace Gfiber.GpioMailbox

open Lib

section Bounds

def InRange (totalTime : Nat) : Prop :=
  1000 ≤ totalTime ∧ totalTime ≤ 10000

theorem setTotalTime_inRange (seconds : Nat) (pattern : Pattern) :
    InRange (pattern.setTotalTime seconds).ledTotalTime := by
  simp only [InRange, Pattern.setTotalTime]
  by_cases long : seconds * 1000 % 2 ^ 32 > 10000
  · rw [if_pos long]
    decide
  · rw [if_neg long]
    by_cases short : seconds * 1000 % 2 ^ 32 < 1000
    · rw [if_pos short]
      decide
    · rw [if_neg short]
      omega

theorem repeated_totalTime (leds : Byte) (brightness : BitVec 32) (repetition : Nat)
    (pattern : Pattern) :
    (pattern.repeated leds brightness repetition).ledTotalTime = pattern.ledTotalTime := by
  induction repetition generalizing pattern with
  | zero => rfl
  | succ repetition ih =>
      rw [Pattern.repeated]
      split
      case isTrue => exact ih _
      case isFalse => rfl

theorem addToken_inRange (longWidth : Nat) {pattern : Pattern}
    (range : InRange pattern.ledTotalTime) (token : List Byte) :
    InRange (pattern.addToken longWidth token).ledTotalTime := by
  cases token with
  | nil => exact range
  | cons first rest =>
      rw [Pattern.addToken]
      split
      case isTrue => exact setTotalTime_inRange _ _
      case isFalse =>
        dsimp only
        rw [repeated_totalTime]
        exact range

theorem addTokens_inRange (longWidth : Nat) (tokens : List (List Byte)) {pattern : Pattern}
    (range : InRange pattern.ledTotalTime) :
    InRange (tokens.foldl (Pattern.addToken longWidth) pattern).ledTotalTime := by
  induction tokens generalizing pattern with
  | nil => exact range
  | cons token tokens ih => exact ih (addToken_inRange longWidth range token)

/-- A pattern that has been read has a light, and its time is in range. -/
theorem readLedSequence_bounds (longWidth : Nat) (tokens : List (List Byte)) (pattern : Pattern) :
    0 < (pattern.readLedSequence longWidth tokens).ledSequenceLen ∧
      InRange (pattern.readLedSequence longWidth tokens).ledTotalTime := by
  have range : InRange pattern.reset.ledTotalTime := by
    simp only [InRange, Pattern.reset]
    decide
  have added := addTokens_inRange longWidth tokens range
  rw [Pattern.readLedSequence, Pattern.orError]
  split
  case isTrue => exact ⟨Nat.one_pos, added⟩
  case isFalse some_led => exact ⟨Nat.pos_of_ne_zero some_led, added⟩

end Bounds

section Entries

/-- Patterns with the same lights. -/
structure Alike (pattern other : Pattern) : Prop where
  length : pattern.ledSequenceLen = other.ledSequenceLen
  time : pattern.ledTotalTime = other.ledTotalTime
  leds : ∀ i, i.val < pattern.ledSequenceLen → pattern.ledSequence i = other.ledSequence i
  brightness : ∀ i, i.val < pattern.ledSequenceLen →
    pattern.ledSequenceForBrightness i = other.ledSequenceForBrightness i

theorem alike_reset (pattern other : Pattern) : Alike pattern.reset other.reset where
  length := rfl
  time := rfl
  leds _ inside := absurd inside (Nat.not_lt_zero _)
  brightness _ inside := absurd inside (Nat.not_lt_zero _)

theorem Alike.push {pattern other : Pattern} (alike : Alike pattern other) (leds : Byte)
    (brightness : BitVec 32) (room : pattern.ledSequenceLen < maxLeds)
    (other_room : other.ledSequenceLen < maxLeds) :
    Alike (pattern.push leds brightness room) (other.push leds brightness other_room) := by
  refine ⟨congrArg (· + 1) alike.length, alike.time, fun i inside => ?_, fun i inside => ?_⟩
  · simp only [Pattern.push, ← alike.length] at inside ⊢
    split
    case isTrue => rfl
    case isFalse before => exact alike.leds i (by omega)
  · simp only [Pattern.push, ← alike.length] at inside ⊢
    split
    case isTrue => rfl
    case isFalse before => exact alike.brightness i (by omega)

theorem Alike.repeated {pattern other : Pattern} (alike : Alike pattern other) (leds : Byte)
    (brightness : BitVec 32) (repetition : Nat) :
    Alike (pattern.repeated leds brightness repetition)
      (other.repeated leds brightness repetition) := by
  induction repetition generalizing pattern other with
  | zero => exact alike
  | succ repetition ih =>
      rw [Pattern.repeated, Pattern.repeated]
      by_cases room : pattern.ledSequenceLen < maxLeds
      · have other_room : other.ledSequenceLen < maxLeds := alike.length ▸ room
        rw [dif_pos room, dif_pos other_room]
        exact ih (alike.push leds brightness room other_room)
      · have other_full : ¬other.ledSequenceLen < maxLeds := alike.length ▸ room
        rw [dif_neg room, dif_neg other_full]
        exact alike

theorem Alike.addToken (longWidth : Nat) {pattern other : Pattern} (alike : Alike pattern other)
    (token : List Byte) :
    Alike (pattern.addToken longWidth token) (other.addToken longWidth token) := by
  cases token with
  | nil => exact alike
  | cons first rest =>
      rw [Pattern.addToken, Pattern.addToken]
      split
      case isTrue => exact ⟨alike.length, rfl, alike.leds, alike.brightness⟩
      case isFalse => exact alike.repeated _ _ _

theorem Alike.addTokens (longWidth : Nat) (tokens : List (List Byte)) {pattern other : Pattern}
    (alike : Alike pattern other) :
    Alike (tokens.foldl (Pattern.addToken longWidth) pattern)
      (tokens.foldl (Pattern.addToken longWidth) other) := by
  induction tokens generalizing pattern other with
  | nil => exact alike
  | cons token tokens ih => exact ih (alike.addToken longWidth token)

/-- A token that is a light with one repetition at least. -/
def IsEntry (longWidth : Nat) (token : List Byte) : Prop :=
  token ≠ [] ∧ token.head? ≠ some (ascii 'x') ∧ 0 < (entryOf longWidth token).repetition

instance (longWidth : Nat) (token : List Byte) : Decidable (IsEntry longWidth token) :=
  inferInstanceAs (Decidable (_ ∧ _))

theorem repeated_length (leds : Byte) (brightness : BitVec 32) (repetition : Nat)
    (pattern : Pattern) :
    pattern.ledSequenceLen ≤ (pattern.repeated leds brightness repetition).ledSequenceLen := by
  induction repetition generalizing pattern with
  | zero => exact Nat.le_refl _
  | succ repetition ih =>
      rw [Pattern.repeated]
      split
      case isTrue room => exact (Nat.le_succ _).trans (ih (pattern.push leds brightness room))
      case isFalse => exact Nat.le_refl _

theorem addToken_length (longWidth : Nat) (pattern : Pattern) (token : List Byte) :
    pattern.ledSequenceLen ≤ (pattern.addToken longWidth token).ledSequenceLen := by
  cases token with
  | nil => exact Nat.le_refl _
  | cons first rest =>
      rw [Pattern.addToken]
      split
      case isTrue => exact Nat.le_refl _
      case isFalse => exact repeated_length _ _ _ _

theorem addTokens_length (longWidth : Nat) (tokens : List (List Byte)) (pattern : Pattern) :
    pattern.ledSequenceLen ≤
      (tokens.foldl (Pattern.addToken longWidth) pattern).ledSequenceLen := by
  induction tokens generalizing pattern with
  | nil => exact Nat.le_refl _
  | cons token tokens ih => exact (addToken_length longWidth pattern token).trans (ih _)

/-- An entry leaves a light in the pattern. -/
theorem addToken_entry {longWidth : Nat} {token : List Byte} (entry : IsEntry longWidth token)
    (pattern : Pattern) : 0 < (pattern.addToken longWidth token).ledSequenceLen := by
  obtain ⟨some_byte, light, positive⟩ := entry
  cases token with
  | nil => exact absurd rfl some_byte
  | cons first rest =>
      have other : first ≠ ascii 'x' := fun same => light (congrArg some same)
      rw [Pattern.addToken, if_neg other]
      dsimp only
      obtain ⟨repetition, count⟩ : ∃ repetition,
          (entryOf longWidth (first :: rest)).repetition.toNat = repetition + 1 :=
        Nat.exists_eq_succ_of_ne_zero (by omega)
      rw [count, Pattern.repeated]
      split
      case isTrue room =>
        exact (Nat.succ_pos pattern.ledSequenceLen).trans_le (repeated_length _ _ repetition
          (pattern.push _ _ room))
      case isFalse full =>
        rw [maxLeds] at full
        omega

/-- A token that is no entry leaves the lights as they are. -/
theorem addToken_other {longWidth : Nat} {token : List Byte} (other : ¬IsEntry longWidth token)
    (pattern : Pattern) :
    (pattern.addToken longWidth token).ledSequenceLen = pattern.ledSequenceLen ∧
      (pattern.addToken longWidth token).ledSequenceForBrightness =
        pattern.ledSequenceForBrightness := by
  cases token with
  | nil => exact ⟨rfl, rfl⟩
  | cons first rest =>
      rw [Pattern.addToken]
      split
      case isTrue => exact ⟨rfl, rfl⟩
      case isFalse light =>
        have idle : (entryOf longWidth (first :: rest)).repetition.toNat = 0 := by
          have none_left : ¬0 < (entryOf longWidth (first :: rest)).repetition := fun positive =>
            other ⟨List.cons_ne_nil _ _, fun same => light (Option.some.inj same), positive⟩
          omega
        dsimp only
        rw [idle]
        exact ⟨rfl, rfl⟩

theorem addTokens_other {longWidth : Nat} {tokens : List (List Byte)}
    (others : ∀ token ∈ tokens, ¬IsEntry longWidth token) (pattern : Pattern) :
    (tokens.foldl (Pattern.addToken longWidth) pattern).ledSequenceLen = pattern.ledSequenceLen ∧
      (tokens.foldl (Pattern.addToken longWidth) pattern).ledSequenceForBrightness =
        pattern.ledSequenceForBrightness := by
  induction tokens generalizing pattern with
  | nil => exact ⟨rfl, rfl⟩
  | cons token tokens ih =>
      rw [List.forall_mem_cons] at others
      obtain ⟨length, brightness⟩ := addToken_other others.1 pattern
      obtain ⟨rest, kept⟩ := ih others.2 (pattern.addToken longWidth token)
      exact ⟨rest.trans length, kept.trans brightness⟩

theorem addTokens_entry {longWidth : Nat} {tokens : List (List Byte)} {token : List Byte}
    (member : token ∈ tokens) (entry : IsEntry longWidth token) (pattern : Pattern) :
    0 < (tokens.foldl (Pattern.addToken longWidth) pattern).ledSequenceLen := by
  induction tokens generalizing pattern with
  | nil => cases member
  | cons first tokens ih =>
      rcases List.mem_cons.mp member with rfl | later
      · exact (addToken_entry entry pattern).trans_le (addTokens_length longWidth tokens _)
      · exact ih later _

/-- A file with an entry is read as the same pattern whatever was read before. -/
theorem alike_readLedSequence {longWidth : Nat} {tokens : List (List Byte)} {token : List Byte}
    (member : token ∈ tokens) (entry : IsEntry longWidth token) (pattern other : Pattern) :
    Alike (pattern.readLedSequence longWidth tokens) (other.readLedSequence longWidth tokens) := by
  have alike := (alike_reset pattern other).addTokens longWidth tokens
  have lit := addTokens_entry member entry pattern.reset
  have other_lit := addTokens_entry member entry other.reset
  rw [Pattern.readLedSequence, Pattern.readLedSequence, Pattern.orError, Pattern.orError,
    if_neg lit.ne', if_neg other_lit.ne']
  exact alike

/-- A file without an entry is read as one light, with the brightness that was there before. -/
theorem readLedSequence_error {longWidth : Nat} {tokens : List (List Byte)}
    (others : ∀ token ∈ tokens, ¬IsEntry longWidth token) (pattern : Pattern) :
    (pattern.readLedSequence longWidth tokens).ledSequenceLen = 1 ∧
      (pattern.readLedSequence longWidth tokens).ledSequenceForBrightness =
        pattern.ledSequenceForBrightness := by
  obtain ⟨length, brightness⟩ := addTokens_other others pattern.reset
  have empty : (tokens.foldl (Pattern.addToken longWidth) pattern.reset).ledSequenceLen = 0 := length
  rw [Pattern.readLedSequence, Pattern.orError, if_pos empty]
  exact ⟨rfl, brightness⟩

end Entries

end Gfiber.GpioMailbox
