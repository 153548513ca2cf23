import Mathlib.Data.Char
import Mathlib.Data.List.Basic
import Mathlib.Data.List.Induction
import Mathlib.Data.List.TakeWhile

/-! Texts as Python's `str` and `re` treat them, one character for a byte. -/

set_option autoImplicit false

namespace Gfiber.Lib

abbrev Text := List Char

/-- By this name in every module that decides whether a text is among others. -/
instance lawfulBEqText : LawfulBEq Text := inferInstance

namespace Text

def isDigit (char : Char) : Bool :=
  '0' ≤ char ∧ char ≤ '9'

def isLetter (char : Char) : Bool :=
  'a' ≤ char ∧ char ≤ 'z' ∨ 'A' ≤ char ∧ char ≤ 'Z'

/-- The class `\w`. -/
def isWord (char : Char) : Bool :=
  isLetter char || isDigit char || char = '_'

/-- The characters `strip` takes away. -/
def spaces : List Char := [' ', '\t', '\n', '\x0b', '\x0c', '\r']

def isSpace (char : Char) : Bool :=
  char ∈ spaces

def strip (text : Text) : Text :=
  ((text.dropWhile isSpace).reverse.dropWhile isSpace).reverse

/-- `text.split()`. -/
def split : Text → List Text
  | [] => []
  | char :: rest =>
      if isSpace char then split rest
      else if rest.head?.all isSpace then [char] :: split rest
      else
        match split rest with
        | [] => [[char]]
        | word :: words => (char :: word) :: words

/-- `text.strip(chars)`. -/
def stripOf (chars text : Text) : Text :=
  ((text.dropWhile (· ∈ chars)).reverse.dropWhile (· ∈ chars)).reverse

/-- `text.rsplit(None, splits)`, of a text that is given in reverse. -/
def rsplitReversed : Nat → Text → List Text
  | 0, text =>
      match text.dropWhile isSpace with
      | [] => []
      | first :: rest => [(first :: rest).reverse]
  | splits + 1, text =>
      match text.dropWhile isSpace with
      | [] => []
      | first :: rest =>
          rsplitReversed splits ((first :: rest).dropWhile (!isSpace ·)) ++
            [((first :: rest).takeWhile (!isSpace ·)).reverse]

def rsplit (splits : Nat) (text : Text) : List Text :=
  rsplitReversed splits text.reverse

/-- What follows the literal at the start of a text. -/
def afterLiteral : Text → Text → Option Text
  | [], text => some text
  | expected :: literal, found :: text =>
      if expected = found then afterLiteral literal text else none
  | _ :: _, [] => none

/-- The group of `re.match` for a literal and then one or more characters of a class. -/
def matchGroup (literal : Text) (inside : Char → Bool) (text : Text) : Option Text := do
  let rest ← afterLiteral literal text
  let group := rest.takeWhile inside
  if group = [] then none else some group

/-- What can be checked of each character holds of any. -/
theorem forall_of_all {text : Text} {holds : Char → Prop} [DecidablePred holds]
    (all : text.all fun char => decide (holds char)) : ∀ char ∈ text, holds char :=
  fun char member => of_decide_eq_true (List.all_eq_true.mp all char member)

theorem afterLiteral_append (literal rest : Text) :
    afterLiteral literal (literal ++ rest) = some rest := by
  induction literal with
  | nil => rfl
  | cons char literal ih => simpa [afterLiteral] using ih

theorem eq_append_of_afterLiteral {literal text rest : Text}
    (found : afterLiteral literal text = some rest) : text = literal ++ rest := by
  induction literal generalizing text with
  | nil =>
      cases found
      rfl
  | cons char literal ih =>
      cases text with
      | nil => cases found
      | cons first text =>
          rw [afterLiteral] at found
          split at found
          case isTrue same => rw [same, ih found, List.cons_append]
          case isFalse => cases found

theorem matchGroup_append (literal : Text) {group : Text} {inside : Char → Bool}
    (some_char : group ≠ []) (all : ∀ char ∈ group, inside char) :
    matchGroup literal inside (literal ++ group) = some group := by
  have whole : group.takeWhile inside = group := List.takeWhile_eq_self_iff.mpr all
  rw [matchGroup, afterLiteral_append]
  simp only [Option.bind_eq_bind, Option.bind_some, whole, if_neg some_char]

theorem solid_of_class {inside : Char → Bool} (class_solid : spaces.all fun char => !inside char)
    {char : Char} (member : inside char) : isSpace char = false := by
  rw [isSpace, decide_eq_false_iff_not]
  intro space
  have outside := List.all_eq_true.mp class_solid char space
  rw [member] at outside
  cases outside

/-- Blanks before a line go, and its last word ends it. -/
theorem strip_line {indent rest group : Text} {first : Char}
    (blank : indent.all isSpace) (solid : isSpace first = false)
    (some_char : group ≠ []) (word : ∀ char ∈ group, isSpace char = false) :
    strip (indent ++ (first :: rest ++ group)) = first :: rest ++ group := by
  obtain ⟨front, last, rfl⟩ := (List.eq_nil_or_concat' group).resolve_left some_char
  have ends : isSpace last = false := word last (by simp)
  rw [strip, List.dropWhile_append_of_pos (List.all_eq_true.mp blank), List.cons_append,
    List.dropWhile_cons_of_neg (by simp [solid])]
  simp [ends]

theorem dropWhile_solid {text : Text} (solid : ∀ char ∈ text, isSpace char = false) :
    text.dropWhile isSpace = text := by
  rw [List.dropWhile_eq_self_iff]
  intro nonempty
  rw [solid _ (List.getElem_mem nonempty)]
  exact Bool.false_ne_true

theorem strip_solid {text : Text} (solid : ∀ char ∈ text, isSpace char = false) :
    strip text = text := by
  have back : ∀ char ∈ text.reverse, isSpace char = false := fun char member =>
    solid char (List.mem_reverse.mp member)
  rw [strip, dropWhile_solid solid, dropWhile_solid back, List.reverse_reverse]

theorem strip_append_blank {indent text : Text} (blank : indent.all isSpace) :
    strip (indent ++ text) = strip text := by
  rw [strip, List.dropWhile_append_of_pos (List.all_eq_true.mp blank), strip]

theorem strip_ends {first last : Char} (middle : Text) (starts : isSpace first = false)
    (ends : isSpace last = false) :
    strip (first :: (middle ++ [last])) = first :: (middle ++ [last]) := by
  rw [strip, List.dropWhile_cons_of_neg (by simp [starts])]
  simp [ends]

/-- A text that `strip` leaves as it is does not end in a blank. -/
theorem ends_of_stripped {text : Text} (stripped : strip text = text) (some_char : text ≠ []) :
    ∃ front last, text = front ++ [last] ∧ isSpace last = false := by
  obtain ⟨front, last, shape⟩ := (List.eq_nil_or_concat' text).resolve_left some_char
  refine ⟨front, last, shape, ?_⟩
  have kept : (text.dropWhile isSpace).reverse.dropWhile isSpace = last :: front.reverse := by
    have back := congrArg List.reverse stripped
    rw [strip, List.reverse_reverse, shape, List.reverse_append] at back
    rw [shape]
    exact back
  have solid := List.head?_dropWhile_not isSpace (text.dropWhile isSpace).reverse
  rw [kept] at solid
  simpa using solid

theorem rsplitReversed_blank (splits : Nat) (text : Text) :
    rsplitReversed splits (' ' :: text) = rsplitReversed splits text := by
  have skipped : (' ' :: text).dropWhile isSpace = text.dropWhile isSpace :=
    List.dropWhile_cons_of_pos (by decide)
  cases splits with
  | zero => rw [rsplitReversed, skipped, rsplitReversed]
  | succ splits => rw [rsplitReversed, skipped, rsplitReversed]

theorem rsplitReversed_word (splits : Nat) {word : Text} (text : Text) (some_char : word ≠ [])
    (solid : ∀ char ∈ word, isSpace char = false) :
    rsplitReversed (splits + 1) (word ++ ' ' :: text) =
      rsplitReversed splits text ++ [word.reverse] := by
  obtain ⟨first, rest, rfl⟩ := List.exists_cons_of_ne_nil some_char
  have whole : (first :: rest ++ ' ' :: text).dropWhile isSpace = first :: rest ++ ' ' :: text :=
    List.dropWhile_cons_of_neg (by simp [solid first List.mem_cons_self])
  have inside : ∀ char ∈ first :: rest, (!isSpace char) = true := by
    intro char member
    rw [solid char member]
    rfl
  have taken : (first :: rest ++ ' ' :: text).takeWhile (!isSpace ·) = first :: rest := by
    rw [List.takeWhile_append_of_pos inside, List.takeWhile_cons_of_neg (by decide),
      List.append_nil]
  have left : (first :: rest ++ ' ' :: text).dropWhile (!isSpace ·) = ' ' :: text := by
    rw [List.dropWhile_append_of_pos inside, List.dropWhile_cons_of_neg (by decide)]
  rw [rsplitReversed, whole]
  simp only [List.cons_append] at taken left ⊢
  rw [taken, left, rsplitReversed_blank]

/-- Words behind a text that ends solidly are split off one by one. -/
theorem rsplit_words {head : Text} {last : Char} {words : List Text}
    (solid : isSpace last = false)
    (each : ∀ word ∈ words, word ≠ [] ∧ ∀ char ∈ word, isSpace char = false) :
    rsplit words.length ((head ++ [last]) ++ words.flatMap (' ' :: ·)) =
      (head ++ [last]) :: words := by
  induction words using List.reverseRecOn with
  | nil => simp [rsplit, rsplitReversed, solid]
  | append_singleton words word ih =>
      obtain ⟨some_char, chars⟩ := each word (by simp)
      have before := ih fun other member => each other (by simp [member])
      have reversed : ((head ++ [last]) ++ (words ++ [word]).flatMap (' ' :: ·)).reverse =
          word.reverse ++ ' ' :: ((head ++ [last]) ++ words.flatMap (' ' :: ·)).reverse := by
        simp
      have step := rsplitReversed_word words.length
        ((head ++ [last]) ++ words.flatMap (' ' :: ·)).reverse
        (mt List.reverse_eq_nil_iff.mp some_char)
        fun char member => chars char (List.mem_reverse.mp member)
      rw [rsplit] at before
      rw [rsplit, reversed, List.length_append, List.length_singleton, step, before,
        List.reverse_reverse, List.cons_append]

end Text

end Gfiber.Lib
