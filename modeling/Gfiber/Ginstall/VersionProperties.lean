import Mathlib.Data.Prod.Lex
import Mathlib.Tactic.IntervalCases
import Gfiber.Ginstall.Install

/-! The two gates that look at the number of a version: one compares texts, the other one
numbers. -/

set_option autoImplicit false

namespace Gfiber.Ginstall

open Lib

section Versions

/-- What follows the major number: nothing, a minor number, or anything after a dash. -/
inductive VersionEnd where
  | bare
  | minor (digits : Text)
  | rest (text : Text)
deriving DecidableEq, Repr

def VersionEnd.text : VersionEnd → Text
  | .bare => []
  | .minor digits => '.' :: digits
  | .rest text => '-' :: text

def VersionEnd.WellFormed : VersionEnd → Prop
  | .minor digits => digits ≠ [] ∧ ∀ char ∈ digits, Text.isDigit char
  | _ => True

/-- A version of the form `name-X`, `name-X.Y` or `name-X-rest`. -/
structure Version where
  name : Text
  major : Text
  last : VersionEnd
  named : name ≠ [] ∧ '-' ∉ name
  digits : major ≠ [] ∧ ∀ char ∈ major, Text.isDigit char
  wellFormed : last.WellFormed

namespace Version

def text (version : Version) : Text :=
  version.name ++ '-' :: (version.major ++ version.last.text)

/-- The numbers of the version, with 0 for a minor number that is not there. -/
def number (version : Version) : Nat × Nat :=
  (digitsValue version.major,
    match version.last with
    | .minor digits => digitsValue digits
    | _ => 0)

end Version

theorem takeWhile_digits {digits rest : Text} (all : ∀ char ∈ digits, Text.isDigit char)
    (stops : (rest.head?.map Text.isDigit).getD false = false) :
    (digits ++ rest).takeWhile Text.isDigit = digits ∧
      (digits ++ rest).dropWhile Text.isDigit = rest := by
  rw [List.takeWhile_append_of_pos all, List.dropWhile_append_of_pos all]
  cases rest with
  | nil => simp
  | cons first rest =>
      have other : Text.isDigit first = false := stops
      simp [other]

/-- The pattern finds the numbers of a version. -/
theorem parse_version (version : Version) :
    parseVersionString version.text = some version.number := by
  have named : ∀ char ∈ version.name, decide (char ≠ '-') = true := by
    intro char member
    rw [decide_eq_true_iff]
    intro same
    exact version.named.2 (same ▸ member)
  have before : version.text.takeWhile (fun char => decide (char ≠ '-')) = version.name := by
    rw [Version.text, List.takeWhile_append_of_pos named]
    simp
  have after : version.text.dropWhile (fun char => decide (char ≠ '-')) =
      '-' :: (version.major ++ version.last.text) := by
    rw [Version.text, List.dropWhile_append_of_pos named]
    simp
  obtain ⟨first, name, spelled⟩ := List.exists_cons_of_ne_nil version.named.1
  have stops : (version.last.text.head?.map Text.isDigit).getD false = false := by
    cases version.last with
    | bare => rfl
    | minor digits => exact (by decide : Text.isDigit '.' = false)
    | rest text => exact (by decide : Text.isDigit '-' = false)
  obtain ⟨major, rest⟩ := takeWhile_digits version.digits.2 stops
  rw [parseVersionString, before, after, spelled]
  dsimp only
  rw [major, rest, if_neg version.digits.1, Version.number]
  have wellFormed := version.wellFormed
  revert wellFormed
  cases version.last with
  | bare => exact fun _ => rfl
  | minor digits =>
      intro wellFormed
      have whole := List.takeWhile_eq_self_iff.mpr wellFormed.2
      change some (_, digitsValue (digits.takeWhile Text.isDigit)) = _
      rw [whole]
  | rest text => exact fun _ => rfl

end Versions

section MinimumVersion

theorem versionLess_iff (number other : Nat × Nat) :
    versionLess (some number) (some other) ↔ toLex number < toLex other := by
  rw [versionLess, Prod.Lex.toLex_lt_toLex]
  simp

variable {host : Host} {manifest : Manifest} {running minimum : Version}

/-- The running version is compared number by number. -/
theorem checkMinimumVersion_iff
    (wanted : manifest.get "minimum_version".toList = some (.text minimum.text))
    (runs : host.version = running.text) :
    checkMinimumVersion host manifest = .ok () ↔
      toLex minimum.number ≤ toLex running.number := by
  have nonempty : minimum.text ≠ [] := by
    rw [Version.text]
    simp
  obtain ⟨first, text, spelled⟩ := List.exists_cons_of_ne_nil nonempty
  have parsed := parse_version minimum
  rw [spelled] at wanted parsed
  rw [checkMinimumVersion, wanted]
  dsimp only
  rw [parsed, runs, parse_version running]
  dsimp only
  rw [← not_lt, ← versionLess_iff]
  by_cases less : versionLess (some running.number) (some minimum.number)
  · rw [if_pos less]
    simp [less]
  · rw [if_neg less]
    simp [less]

end MinimumVersion

section OldVersion

theorem mem_digits {char : Char} (digit : Text.isDigit char) : char ∈ "0123456789".toList := by
  rw [Text.isDigit, decide_eq_true_iff] at digit
  have low : 48 ≤ char.toNat := digit.1
  have high : char.toNat ≤ 57 := digit.2
  rw [← Char.ofNat_toNat char]
  interval_cases char.toNat <;> decide

theorem le_digitsValue_append (digits more : Text) :
    digitsValue digits ≤ digitsValue (digits ++ more) := by
  induction more using List.reverseRecOn with
  | nil => rw [List.append_nil]
  | append_singleton more char ih =>
      rw [← List.append_assoc, digitsValue, digitsValue, List.foldl_append]
      rw [digitsValue, digitsValue] at ih
      dsimp only [List.foldl_cons, List.foldl_nil]
      omega

/-- The first two digits decide how a text compares with `24`. -/
def leading (major : Text) : Nat :=
  digitsValue (major.take 2)

theorem lt_append_left {front text other : Text} : front ++ text < front ++ other ↔ text < other := by
  induction front with
  | nil => rfl
  | cons char front ih =>
      rw [List.cons_append, List.cons_append, List.cons_lt_cons_iff, ih]
      simp

theorem end_lt_digit (last : VersionEnd) : last.text < "4".toList := by
  cases last with
  | bare => decide
  | minor digits => exact List.cons_lt_cons_iff.mpr (Or.inl (by decide))
  | rest text => exact List.cons_lt_cons_iff.mpr (Or.inl (by decide))

/-- How a version with the number 24 or more differs from one below as a text. -/
theorem lt_24_iff {major : Text} (nonempty : major ≠ [])
    (all : ∀ char ∈ major, Text.isDigit char) (last : VersionEnd) :
    major ++ last.text < "24".toList ↔
      if major.length = 1 then digitsValue major < 3 else leading major < 24 := by
  have one : ∀ char ∈ "0123456789".toList,
      (char < '2' ∨ char = '2') ↔ digitsValue [char] < 3 := Text.forall_of_all (by decide)
  have pairs : "0123456789".toList.all fun char => "0123456789".toList.all fun next =>
      decide ((char < '2' ∨ char = '2' ∧ next < '4') ↔ digitsValue [char, next] < 24) := by decide
  have two : ∀ char ∈ "0123456789".toList, ∀ next ∈ "0123456789".toList,
      (char < '2' ∨ char = '2' ∧ next < '4') ↔ digitsValue [char, next] < 24 :=
    fun char first => Text.forall_of_all (List.all_eq_true.mp pairs char first)
  cases major with
  | nil => exact absurd rfl nonempty
  | cons char major =>
      have first := mem_digits (all char List.mem_cons_self)
      change char :: (major ++ last.text) < '2' :: "4".toList ↔ _
      rw [List.cons_lt_cons_iff]
      cases major with
      | nil =>
          have single : [char].length = 1 := rfl
          rw [if_pos single, ← one char first, List.nil_append, and_iff_left (end_lt_digit last)]
      | cons next major =>
          have second := mem_digits (all next (by simp))
          rw [if_neg (by simp)]
          have shorter : leading (char :: next :: major) = digitsValue [char, next] := rfl
          rw [shorter, ← two char first next second]
          change _ ∨ _ ∧ next :: (major ++ last.text) < '4' :: [] ↔ _
          rw [List.cons_lt_cons_iff]
          simp

theorem leading_le (major : Text) : leading major ≤ digitsValue major := by
  have whole := le_digitsValue_append (major.take 2) (major.drop 2)
  rwa [List.take_append_drop] at whole

theorem leading_two {major : Text} (short : major.length ≤ 2) :
    leading major = digitsValue major := by
  rw [leading, List.take_of_length_le short]

/-- The number of digits does not get in the way of the comparison: a number of one digit is
below 3, and the first two of three or more digits are below 24 only if all of them are. -/
def ComparesAsNumber (major : Text) : Prop :=
  (major.length = 1 → digitsValue major < 3) ∧
    (3 ≤ major.length → digitsValue major < 24 ∨ 24 ≤ leading major)

theorem compares_iff {major : Text} (nonempty : major ≠ [])
    (all : ∀ char ∈ major, Text.isDigit char) :
    ((if major.length = 1 then digitsValue major < 3 else leading major < 24) ↔
      digitsValue major < 24) ↔ ComparesAsNumber major := by
  have some_digit := List.length_pos_iff.mpr nonempty
  have smaller := leading_le major
  rw [ComparesAsNumber]
  by_cases one : major.length = 1
  · have digit : digitsValue major < 24 := by
      obtain ⟨char, rfl⟩ := List.length_eq_one_iff.mp one
      have below : ∀ char ∈ "0123456789".toList, digitsValue [char] < 24 :=
        Text.forall_of_all (by decide)
      exact below char (mem_digits (all char List.mem_cons_self))
    rw [if_pos one]
    simp only [one, true_implies, digit, iff_true]
    omega
  · rw [if_neg one]
    by_cases two : major.length = 2
    · rw [leading_two two.le]
      simp [two]
    · have three : 3 ≤ major.length := by omega
      simp only [one, false_implies, true_and, three, true_implies]
      omega

variable {manifest : Manifest} {version : Version}

/-- An image of `gfibertv` is refused when its version is below `24` as a text. -/
theorem checkVeryOldVersion_iff (found : versionValue manifest = .text version.text)
    (gfibertv : version.name = "gfibertv".toList) :
    checkVeryOldVersion manifest ≠ .ok () ↔
      version.major ++ version.last.text < "24".toList := by
  have spelled : version.text =
      "gfibertv-".toList ++ (version.major ++ version.last.text) := by
    rw [Version.text, gfibertv]
    rfl
  have bruno : ¬"bruno-".toList.isPrefixOf version.text = true := by
    rw [spelled]
    exact Bool.false_ne_true
  have starts : "gfibertv-".toList.isPrefixOf version.text = true := by
    rw [spelled, List.isPrefixOf_iff_prefix]
    exact List.prefix_append _ _
  have less : version.text < "gfibertv-24".toList ↔
      version.major ++ version.last.text < "24".toList := by
    rw [spelled]
    exact lt_append_left
  have nonempty : version.text ≠ [] := by
    rw [spelled]
    exact List.cons_ne_nil _ _
  rw [← less, checkVeryOldVersion, found]
  split
  case h_1 empty => exact absurd (Value.text.inj empty) nonempty
  case h_2 list => cases list
  case h_3 list => cases list
  case h_4 other =>
    cases other
    by_cases old : version.text < "gfibertv-24".toList
    · rw [if_pos (Or.inr ⟨starts, old⟩)]
      exact iff_of_true (fun accepted => by cases accepted) old
    · rw [if_neg (not_or.mpr ⟨bruno, fun both => old both.2⟩)]
      exact iff_of_false (fun refused => refused rfl) old

/-- The gates follow the numbers of the versions exactly when the number of the image compares
with 24 as its text does. The gate for the minimum version always does. -/
theorem gates_follow_numbers_iff {host : Host} {running minimum : Version}
    (found : versionValue manifest = .text version.text)
    (gfibertv : version.name = "gfibertv".toList)
    (wanted : manifest.get "minimum_version".toList = some (.text minimum.text))
    (runs : host.version = running.text) :
    ((checkVeryOldVersion manifest ≠ .ok () ↔ version.number.1 < 24) ∧
        (checkMinimumVersion host manifest = .ok () ↔
          toLex minimum.number ≤ toLex running.number)) ↔
      ComparesAsNumber version.major := by
  have follows := checkMinimumVersion_iff wanted runs
  rw [checkVeryOldVersion_iff found gfibertv, lt_24_iff version.digits.1 version.digits.2,
    Version.number, compares_iff version.digits.1 version.digits.2]
  exact and_iff_left follows

end OldVersion

section Example

def gfibertv (digits : Text) (nonempty : digits ≠ []) (all : ∀ char ∈ digits, Text.isDigit char) :
    Version :=
  ⟨"gfibertv".toList, digits, .bare, by decide, ⟨nonempty, all⟩, trivial⟩

def gfibertv41 : Version :=
  gfibertv "41".toList (by decide) (Text.forall_of_all (by decide))

def manifest41 : Manifest :=
  [("version".toList, .text gfibertv41.text), ("minimum_version".toList, .text gfibertv41.text)]

theorem gates_follow_numbers_41 :
    checkVeryOldVersion manifest41 = .ok () ∧ ComparesAsNumber "41".toList := by
  have found : versionValue manifest41 = .text gfibertv41.text := by decide
  have wanted : manifest41.get "minimum_version".toList = some (.text gfibertv41.text) := by decide
  have runs : ({ gfhd100 with version := gfibertv41.text } : Host).version = gfibertv41.text := rfl
  have accepted : checkVeryOldVersion manifest41 = .ok () := by decide
  have follows := gates_follow_numbers_iff found rfl wanted runs
  refine ⟨accepted, follows.mp ⟨?_, ?_⟩⟩
  · constructor
    · intro refused
      exact absurd accepted refused
    · intro old
      exact absurd old (by decide)
  · exact checkMinimumVersion_iff wanted runs

/-- Version 9 is let through, and version 100 is refused. -/
theorem numbers_not_followed :
    (checkVeryOldVersion [("version".toList, .text "gfibertv-9".toList)] = .ok () ∧ 9 < 24) ∧
      (checkVeryOldVersion [("version".toList, .text "gfibertv-100".toList)] =
        .error (.tooOld "gfibertv-100".toList) ∧ ¬100 < 24) := by
  decide

end Example

end Gfiber.Ginstall
