import Gfiber.Speedtest.Url

/-! Every part that is read has the form in which it is written, and a text of
that form is read back whole up to the character that ends it. -/

set_option autoImplicit false

namespace Gfiber.Speedtest

open Lib

section Equations

-- The equations of the readers, made once and before the proofs that share them.
attribute [local simp] schemeFrom portFrom ipv6From markedFrom pathFrom

end Equations

section Grammar

def schemeChar (ch : Byte) : Bool :=
  isalnum ch || ch = ascii '-' || ch = ascii '.'

structure SchemeText (text : List Byte) : Prop where
  alpha : ∃ first rest, text = first :: rest ∧ isalpha first ∧ ∀ ch ∈ rest, schemeChar ch

def addressChar (ch : Byte) : Bool :=
  isxdigit ch || ch = ascii ':'

inductive HostText : List Byte → Prop where
  | ipv6 {address : List Byte} (inside : ∀ ch ∈ address, addressChar ch) :
      HostText (ascii '[' :: (address ++ [ascii ']']))
  | name {text : List Byte} (some_char : text ≠ []) (plain : ∀ ch ∈ text, isReserved ch = false) :
      HostText text

theorem HostText.ne_nil {text : List Byte} (valid : HostText text) : text ≠ [] := by
  cases valid with
  | ipv6 inside => exact List.cons_ne_nil _ _
  | name some_char plain => exact some_char

def PathText : PathState → List Byte → Prop
  | _, [] => True
  | .leadingSlash, ch :: rest => ch = ascii '/' ∧ PathText .slash rest
  | .slash, ch :: rest => isPchar ch ∧ PathText .pchar rest
  | .pchar, ch :: rest =>
      ch = ascii '/' ∧ PathText .slash rest ∨
        ch ≠ ascii '/' ∧ isPchar ch ∧ PathText .pchar rest

theorem PathText.empty (state : PathState) : PathText state [] := by
  cases state <;> trivial

theorem stops_first {inside : Byte → Bool} {mark ch : Byte} {rest : List Byte}
    (stops : Stops (fun ch => inside ch || ch = mark) (ch :: rest)) :
    inside ch = false ∧ ch ≠ mark := by
  have outside := stops ch rfl
  rw [Bool.or_eq_false_iff, decide_eq_false_iff_not] at outside
  exact outside

end Grammar

section Parts

theorem schemeChar_plain {ch : Byte} (inside : schemeChar ch) : ch ≠ ascii ':' := by
  intro same
  rw [same] at inside
  exact absurd inside (by decide)

theorem schemeChar_iff {ch : Byte} : schemeChar ch ↔
    ¬ (!isalnum ch && ch ≠ ascii '-' && ch ≠ ascii '-' && ch ≠ ascii '.') = true := by
  simp only [schemeChar, Bool.or_eq_true, Bool.and_eq_true, decide_eq_true_eq, Bool.not_eq_true']
  cases isalnum ch with
  | false => tauto
  | true => tauto

/-- The scheme is complete at its colon. -/
theorem schemeFrom_colon {taken current out rest : List Byte}
    (read : schemeFrom .colon taken current = some (out, rest)) :
    out = taken ∧ current = bytesOf "//" ++ rest := by
  match current with
  | [] => cases read
  | [_] => simp [schemeFrom] at read
  | [_, _] => simp [schemeFrom] at read
  | _ :: _ :: _ :: _ =>
      simp only [schemeFrom] at read
      split at read
      case isTrue => cases read
      case isFalse first =>
        split at read
        case isTrue => cases read
        case isFalse second =>
          cases read
          rw [Decidable.not_not.mp first, Decidable.not_not.mp second]
          exact ⟨rfl, rfl⟩

theorem schemeFrom_sound {taken current out rest : List Byte}
    (read : schemeFrom .alphaNum taken current = some (out, rest)) :
    ∃ text, out = taken ++ text ∧ (∀ ch ∈ text, schemeChar ch) ∧
      current = text ++ (bytesOf "://" ++ rest) := by
  induction current generalizing taken with
  | nil => cases read
  | cons ch current ih =>
      rw [schemeFrom] at read
      split at read
      case isTrue colon =>
        obtain ⟨whole, slashes⟩ := schemeFrom_colon read
        exact ⟨[], by rw [whole, List.append_nil], by simp, by rw [colon, slashes]; rfl⟩
      case isFalse =>
        split at read
        case isTrue => cases read
        case isFalse inside =>
          obtain ⟨text, rfl, all, whole⟩ := ih read
          exact ⟨ch :: text, by simp, List.forall_mem_cons.mpr ⟨schemeChar_iff.mpr inside, all⟩,
            by rw [whole, List.cons_append]⟩

theorem scheme_sound {current text rest : List Byte} (read : scheme current = some (text, rest)) :
    SchemeText text ∧ current = text ++ (bytesOf "://" ++ rest) := by
  cases current with
  | nil => cases read
  | cons ch current =>
      rw [scheme, schemeFrom] at read
      split at read
      case isTrue => cases read
      case isFalse alpha =>
        obtain ⟨text, rfl, all, whole⟩ := schemeFrom_sound read
        exact ⟨⟨ch, text, rfl, by simpa using alpha, all⟩, by rw [whole]; rfl⟩

theorem schemeFrom_complete {text : List Byte} (all : ∀ ch ∈ text, schemeChar ch)
    (taken : List Byte) {first : Byte} (rest : List Byte) :
    schemeFrom .alphaNum taken (text ++ (bytesOf "://" ++ first :: rest)) =
      some (taken ++ text, first :: rest) := by
  induction text generalizing taken with
  | nil => simp [schemeFrom, bytesOf, ascii]
  | cons ch text ih =>
      obtain ⟨inside, later⟩ := List.forall_mem_cons.mp all
      rw [List.cons_append, schemeFrom, if_neg (schemeChar_plain inside),
        if_neg (schemeChar_iff.mp inside), ih later]
      simp

theorem scheme_complete {text : List Byte} (valid : SchemeText text) {rest : List Byte}
    (some_char : rest ≠ []) : scheme (text ++ (bytesOf "://" ++ rest)) = some (text, rest) := by
  obtain ⟨first, others, rfl, alpha, all⟩ := valid.alpha
  obtain ⟨next, rest, rfl⟩ := List.exists_cons_of_ne_nil some_char
  rw [scheme, List.cons_append, schemeFrom, alpha, Bool.not_true, if_neg Bool.false_ne_true,
    schemeFrom_complete all]
  rfl

theorem addressChar_iff {ch : Byte} : addressChar ch ↔
    ¬ (!isxdigit ch && ch ≠ ascii ':') = true := by
  simp only [addressChar, Bool.or_eq_true, Bool.and_eq_true, decide_eq_true_eq, Bool.not_eq_true']
  cases isxdigit ch with
  | false => tauto
  | true => tauto

theorem addressChar_plain {ch : Byte} (inside : addressChar ch) : ch ≠ ascii ']' := by
  intro same
  rw [same] at inside
  exact absurd inside (by decide)

theorem ipv6From_sound {taken current out rest : List Byte}
    (read : ipv6From .address taken current = some (out, rest)) :
    ∃ address, out = taken ++ (address ++ [ascii ']']) ∧ (∀ ch ∈ address, addressChar ch) ∧
      current = address ++ ascii ']' :: rest := by
  induction current generalizing taken with
  | nil => cases read
  | cons ch current ih =>
      rw [ipv6From] at read
      split at read
      case isTrue close =>
        simp only [ipv6From, Option.some.injEq, Prod.mk.injEq] at read
        exact ⟨[], by rw [← read.1, close]; rfl, by simp, by rw [close, read.2]; rfl⟩
      case isFalse =>
        split at read
        case isTrue => cases read
        case isFalse inside =>
          obtain ⟨address, rfl, all, whole⟩ := ih read
          have inside := addressChar_iff.mpr inside
          exact ⟨ch :: address, by simp, List.forall_mem_cons.mpr ⟨inside, all⟩,
            by rw [whole, List.cons_append]⟩

theorem ipv6_sound {current text rest : List Byte} (read : ipv6 current = some (text, rest)) :
    HostText text ∧ current = text ++ rest := by
  cases current with
  | nil => cases read
  | cons ch current =>
      rw [ipv6, ipv6From] at read
      split at read
      case isTrue => cases read
      case isFalse bracket =>
        obtain ⟨address, rfl, all, whole⟩ := ipv6From_sound read
        rw [Decidable.not_not.mp bracket, whole]
        exact ⟨.ipv6 all, by simp⟩

theorem ipv6From_complete {address : List Byte} (all : ∀ ch ∈ address, addressChar ch)
    (taken rest : List Byte) :
    ipv6From .address taken (address ++ ascii ']' :: rest) =
      some (taken ++ (address ++ [ascii ']']), rest) := by
  induction address generalizing taken with
  | nil => simp [ipv6From]
  | cons ch address ih =>
      obtain ⟨inside, later⟩ := List.forall_mem_cons.mp all
      rw [List.cons_append, ipv6From, if_neg (addressChar_plain inside),
        if_neg (addressChar_iff.mp inside), ih later]
      simp

theorem ipv6_of_ne {ch : Byte} (other : ch ≠ ascii '[') (rest : List Byte) :
    ipv6 (ch :: rest) = none := by
  rw [ipv6, ipv6From, if_pos other]

theorem host_sound {current text rest : List Byte} (read : host current = some (text, rest)) :
    HostText text ∧ current = text ++ rest := by
  rw [host] at read
  split at read
  case isTrue => cases read
  case isFalse some_char =>
    cases read
    refine ⟨.name some_char fun ch member => ?_, List.takeWhile_append_dropWhile.symm⟩
    simpa using List.mem_takeWhile_imp member

/-- A host is read up to a reserved character after it. -/
theorem authority_complete {text : List Byte} (valid : HostText text) {rest : List Byte}
    (stops : Stops (fun ch => !isReserved ch) rest) :
    (ipv6 (text ++ rest)).or (host (text ++ rest)) = some (text, rest) := by
  cases valid with
  | @ipv6 address inside =>
      have read : ipv6 (ascii '[' :: (address ++ [ascii ']']) ++ rest) =
          some (ascii '[' :: (address ++ [ascii ']']), rest) := by
        rw [ipv6, List.cons_append, ipv6From, if_neg (by simp), List.append_assoc,
          List.singleton_append, ipv6From_complete inside]
        rfl
      rw [read, Option.some_or]
  | name some_char plain =>
      obtain ⟨first, others, rfl⟩ := List.exists_cons_of_ne_nil some_char
      have bracket : first ≠ ascii '[' := by
        intro same
        have reserved := plain first List.mem_cons_self
        rw [same] at reserved
        exact absurd reserved (by decide)
      have name : ∀ ch ∈ first :: others, !isReserved ch := by
        intro ch member
        rw [plain ch member]
        rfl
      obtain ⟨taken, dropped⟩ := stops.split name
      rw [List.cons_append, ipv6_of_ne bracket, Option.none_or, ← List.cons_append, host, taken,
        dropped, if_neg some_char]

/-- The digits of a port, leading zeros included. -/
structure PortDigits (digits : List Byte) : Prop where
  some_digit : digits ≠ []
  all_digits : ∀ ch ∈ digits, isdigit ch
  range : 1 ≤ decimal digits ∧ decimal digits ≤ 65535

theorem portFrom_sound {state : PortState} (past : state ≠ .colon)
    {taken current out rest : List Byte}
    (read : portFrom state taken current = some (out, rest)) :
    ∃ digits, out = taken ++ digits ∧ (∀ ch ∈ digits, isdigit ch) ∧
      (state = .firstDigit → digits ≠ []) ∧ current = digits ++ rest := by
  induction current generalizing state taken with
  | nil =>
      cases state with
      | colon => exact absurd rfl past
      | firstDigit => cases read
      | digit =>
          cases read
          exact ⟨[], (List.append_nil _).symm, by simp, by simp, rfl⟩
  | cons ch current ih =>
      have went (here : isdigit ch)
          (read : portFrom .digit (taken ++ [ch]) current = some (out, rest)) :
          ∃ digits, out = taken ++ digits ∧ (∀ ch ∈ digits, isdigit ch) ∧
            (state = .firstDigit → digits ≠ []) ∧ ch :: current = digits ++ rest := by
        obtain ⟨digits, rfl, all, _, whole⟩ := ih (by decide) read
        exact ⟨ch :: digits, by simp, List.forall_mem_cons.mpr ⟨here, all⟩,
          fun _ => List.cons_ne_nil ch digits, by rw [whole, List.cons_append]⟩
      cases state with
      | colon => exact absurd rfl past
      | firstDigit =>
          rw [portFrom] at read
          split at read
          case isTrue => cases read
          case isFalse here => exact went (by simpa using here) read
      | digit =>
          rw [portFrom] at read
          split at read
          case isTrue =>
            cases read
            exact ⟨[], (List.append_nil _).symm, by simp, by simp, rfl⟩
          case isFalse here => exact went (by simpa using here) read

theorem parseInt_digits {digits : List Byte} (all : ∀ ch ∈ digits, isdigit ch) :
    parseInt digits =
      if digits = [] ∨ 2 ^ 31 ≤ decimal digits then none else some (decimal digits : Int) := by
  simp only [parseInt, signedDigits_digits all, Bool.false_eq_true, if_false]
  have positive : ¬ (decimal digits : Int) < -2 ^ 31 := by omega
  have large : 2 ^ 31 ≤ (decimal digits : Int) ↔ 2 ^ 31 ≤ decimal digits := by omega
  simp only [positive, large, false_or]

theorem port_sound {current rest : List Byte} {portnum : Int}
    (read : port current = some (portnum, rest)) :
    ∃ digits, PortDigits digits ∧ portnum = decimal digits ∧
      current = ascii ':' :: (digits ++ rest) := by
  obtain ⟨⟨digits, after⟩, taken, read⟩ := Option.bind_eq_some_iff.mp read
  obtain ⟨value, parsed, read⟩ := Option.bind_eq_some_iff.mp read
  cases current with
  | nil => cases taken
  | cons ch current =>
      rw [portFrom] at taken
      split at taken
      case isTrue => cases taken
      case isFalse colon =>
        obtain ⟨digits, rfl, all, some_digit, whole⟩ := portFrom_sound (by decide) taken
        simp only [parseInt_digits all] at parsed
        split at parsed
        case isTrue => cases parsed
        case isFalse =>
          cases parsed
          split at read
          case isTrue => cases read
          case isFalse range =>
            cases read
            refine ⟨digits, ⟨some_digit rfl, all, by omega⟩, rfl, ?_⟩
            rw [whole, Decidable.not_not.mp colon]

theorem portFrom_complete {digits : List Byte} (all : ∀ ch ∈ digits, isdigit ch)
    (taken : List Byte) {rest : List Byte} (stops : Stops isdigit rest) :
    portFrom .digit taken (digits ++ rest) = some (taken ++ digits, rest) := by
  induction digits generalizing taken with
  | nil =>
      cases rest with
      | nil => simp [portFrom]
      | cons ch rest =>
          have outside : isdigit ch = false := stops ch rfl
          simp [portFrom, outside]
  | cons ch digits ih =>
      obtain ⟨inside, later⟩ := List.forall_mem_cons.mp all
      rw [List.cons_append, portFrom, inside, Bool.not_true, if_neg Bool.false_ne_true, ih later]
      simp

theorem port_complete {digits : List Byte} (valid : PortDigits digits) {rest : List Byte}
    (stops : Stops isdigit rest) :
    port (ascii ':' :: (digits ++ rest)) = some ((decimal digits : Int), rest) := by
  obtain ⟨some_digit, all, range⟩ := valid
  have parsed : parseInt digits = some (decimal digits : Int) := by
    rw [parseInt_digits all, if_neg (by simp only [some_digit, false_or]; omega)]
  obtain ⟨first, others, rfl⟩ := List.exists_cons_of_ne_nil some_digit
  obtain ⟨inside, later⟩ := List.forall_mem_cons.mp all
  have read : portFrom .colon [] (ascii ':' :: (first :: others ++ rest)) =
      some (first :: others, rest) := by
    rw [portFrom, if_neg (by simp), List.cons_append, portFrom, inside, Bool.not_true,
      if_neg Bool.false_ne_true, portFrom_complete later _ stops]
    rfl
  simp only [port, read, Option.bind_eq_bind, Option.bind_some, parsed]
  rw [if_neg (by omega)]

/-- The number that is printed for a port. -/
theorem portDigits_printInt {portnum : Int} (range : 1 ≤ portnum ∧ portnum ≤ 65535) :
    PortDigits (printInt portnum) ∧ (decimal (printInt portnum) : Int) = portnum := by
  have printed : printInt portnum = printNat portnum.natAbs := by
    rw [printInt, if_neg (by omega)]
  have value := decimal_printNat portnum.natAbs
  rw [printed, value]
  refine ⟨⟨?_, isdigit_printNat _, by rw [value]; omega⟩, by omega⟩
  simp [printNat, Nat.toDigits_ne_nil]

theorem port_of_ne {ch : Byte} (other : ch ≠ ascii ':') (rest : List Byte) :
    port (ch :: rest) = none := by
  rw [port, portFrom, if_pos other]
  rfl

theorem pathFrom_sound {state : PathState} {taken current out rest : List Byte}
    (read : pathFrom state taken current = some (out, rest)) :
    ∃ text, out = taken ++ text ∧ PathText state text ∧ current = text ++ rest := by
  induction current generalizing state taken with
  | nil =>
      simp only [pathFrom, Option.some.injEq, Prod.mk.injEq] at read
      exact ⟨[], by rw [← read.1, List.append_nil], .empty state, read.2⟩
  | cons ch current ih =>
      have ended (same : some (taken, ch :: current) = some (out, rest)) :
          ∃ text, out = taken ++ text ∧ PathText state text ∧ ch :: current = text ++ rest := by
        cases same
        exact ⟨[], (List.append_nil _).symm, .empty state, rfl⟩
      have went {next : PathState} (read : pathFrom next (taken ++ [ch]) current = some (out, rest))
          (valid : ∀ text, PathText next text → PathText state (ch :: text)) :
          ∃ text, out = taken ++ text ∧ PathText state text ∧ ch :: current = text ++ rest := by
        obtain ⟨text, rfl, later, whole⟩ := ih read
        exact ⟨ch :: text, by simp, valid text later, by rw [whole, List.cons_append]⟩
      cases state with
      | leadingSlash =>
          rw [pathFrom] at read
          split at read
          case isTrue => cases read
          case isFalse slash => exact went read fun _ later => ⟨Decidable.not_not.mp slash, later⟩
      | slash =>
          rw [pathFrom] at read
          split at read
          case isTrue => exact ended read
          case isFalse inside => exact went read fun _ later => ⟨by simpa using inside, later⟩
      | pchar =>
          rw [pathFrom] at read
          split at read
          case isTrue slash => exact went read fun _ later => .inl ⟨slash, later⟩
          case isFalse other =>
            split at read
            case isTrue => exact ended read
            case isFalse inside =>
              exact went read fun _ later => .inr ⟨other, by simpa using inside, later⟩

theorem pathFrom_complete {state : PathState} {text : List Byte} (valid : PathText state text)
    (started : state = .leadingSlash → text ≠ []) (taken : List Byte) {rest : List Byte}
    (stops : Stops (fun ch => isPchar ch || ch = ascii '/') rest) :
    pathFrom state taken (text ++ rest) = some (taken ++ text, rest) := by
  induction text generalizing state taken with
  | nil =>
      cases rest with
      | nil => simp [pathFrom]
      | cons ch rest =>
          have outside := stops_first stops
          cases state with
          | leadingSlash => exact absurd rfl (started rfl)
          | slash => simp [pathFrom, outside.1]
          | pchar => simp [pathFrom, outside.1, outside.2]
  | cons ch text ih =>
      rw [List.cons_append]
      cases state with
      | leadingSlash => simp [pathFrom, valid.1, ih valid.2]
      | slash => simp [pathFrom, valid.1, ih valid.2]
      | pchar =>
          cases valid with
          | inl slash => simp [pathFrom, slash.1, ih slash.2]
          | inr inside => simp [pathFrom, inside.1, inside.2.1, ih inside.2.2]

theorem absolutePath_sound (current : List Byte) :
    PathText .leadingSlash (orElse (absolutePath current) [] current).1 ∧
      current = (orElse (absolutePath current) [] current).1 ++
        (orElse (absolutePath current) [] current).2 := by
  cases read : absolutePath current with
  | none => exact ⟨.empty .leadingSlash, rfl⟩
  | some part =>
      obtain ⟨text, taken, valid, whole⟩ := pathFrom_sound read
      rw [orElse, Option.getD_some, taken]
      exact ⟨valid, whole⟩

/-- A path is read back up to the query string or the fragment, also when it is not there. -/
theorem absolutePath_complete {text : List Byte} (valid : PathText .leadingSlash text)
    {rest : List Byte} (stops : Stops (fun ch => isPchar ch || ch = ascii '/') rest) :
    orElse (absolutePath (text ++ rest)) [] (text ++ rest) = (text, rest) := by
  cases text with
  | nil =>
      cases rest with
      | nil => rfl
      | cons ch rest =>
          have outside := stops_first stops
          rw [List.nil_append, absolutePath, pathFrom, if_pos outside.2]
          rfl
  | cons ch text =>
      rw [absolutePath, pathFrom_complete valid (fun _ => List.cons_ne_nil ch text) [] stops]
      rfl

theorem markedFrom_sound {mark : Char} {inside : Byte → Bool} {state : MarkState}
    (past : state ≠ .mark) {taken current out rest : List Byte}
    (read : markedFrom mark inside state taken current = some (out, rest)) :
    ∃ text, out = taken ++ text ∧ (∀ ch ∈ text, inside ch) ∧ current = text ++ rest := by
  induction current generalizing state taken with
  | nil =>
      simp only [markedFrom, Option.some.injEq, Prod.mk.injEq] at read
      exact ⟨[], by rw [← read.1, List.append_nil], by simp, read.2⟩
  | cons ch current ih =>
      have inner (read : (if !inside ch then some (taken, ch :: current)
          else markedFrom mark inside .body (taken ++ [ch]) current) = some (out, rest)) :
          ∃ text, out = taken ++ text ∧ (∀ ch ∈ text, inside ch) ∧
            ch :: current = text ++ rest := by
        split at read
        case isTrue =>
          cases read
          exact ⟨[], (List.append_nil _).symm, by simp, rfl⟩
        case isFalse here =>
          obtain ⟨text, rfl, all, whole⟩ := ih (by decide) read
          rw [Bool.not_eq_true, Bool.not_eq_false'] at here
          exact ⟨ch :: text, by simp, List.forall_mem_cons.mpr ⟨here, all⟩,
            by rw [whole, List.cons_append]⟩
      cases state with
      | mark => exact absurd rfl past
      | firstChar => exact inner read
      | body => exact inner read

/-- A part as it stands in the text: left out, or behind its mark. -/
def written (mark : Char) : Option (List Byte) → List Byte
  | none => []
  | some text => ascii mark :: text

theorem marked_sound (mark : Char) (inside : Byte → Bool) (current : List Byte) :
    ∃ part : Option (List Byte),
      (orElse (markedFrom mark inside .mark [] current) [] current).1 = part.getD [] ∧
      (∀ ch ∈ part.getD [], inside ch) ∧
      current = written mark part ++
        (orElse (markedFrom mark inside .mark [] current) [] current).2 := by
  cases current with
  | nil => exact ⟨none, rfl, by simp, rfl⟩
  | cons ch current =>
      cases read : markedFrom mark inside .mark [] (ch :: current) with
      | none => exact ⟨none, rfl, by simp, rfl⟩
      | some part =>
          rw [markedFrom] at read
          split at read
          case isTrue => cases read
          case isFalse here =>
            obtain ⟨text, taken, all, whole⟩ := markedFrom_sound (by decide) read
            refine ⟨some text, ?_, all, ?_⟩
            · rw [orElse, Option.getD_some, taken]
              rfl
            · rw [whole, Decidable.not_not.mp here]
              rfl

theorem markedFrom_complete {mark : Char} {inside : Byte → Bool} {state : MarkState}
    (past : state ≠ .mark) {text : List Byte} (all : ∀ ch ∈ text, inside ch) (taken : List Byte)
    {rest : List Byte} (stops : Stops inside rest) :
    markedFrom mark inside state taken (text ++ rest) = some (taken ++ text, rest) := by
  induction text generalizing state taken with
  | nil =>
      cases rest with
      | nil => simp [markedFrom]
      | cons ch rest =>
          have outside : inside ch = false := stops ch rfl
          cases state with
          | mark => exact absurd rfl past
          | firstChar => simp [markedFrom, outside]
          | body => simp [markedFrom, outside]
  | cons ch text ih =>
      obtain ⟨here, later⟩ := List.forall_mem_cons.mp all
      have body : MarkState.body ≠ .mark := by decide
      cases state with
      | mark => exact absurd rfl past
      | firstChar => simp [markedFrom, here, ih body later]
      | body => simp [markedFrom, here, ih body later]

theorem written_stops {mark : Char} {inside : Byte → Bool} (outside : inside (ascii mark) = false)
    (part : Option (List Byte)) : Stops inside (written mark part) := by
  intro ch first
  cases part with
  | none => cases first
  | some text =>
      cases first
      exact outside

theorem written_complete {mark : Char} {inside : Byte → Bool} {part : Option (List Byte)}
    (all : ∀ ch ∈ part.getD [], inside ch) {rest : List Byte}
    (stops : Stops (fun ch => inside ch || ch = ascii mark) rest) :
    orElse (markedFrom mark inside .mark [] (written mark part ++ rest)) []
      (written mark part ++ rest) = (part.getD [], rest) := by
  have ends : Stops inside rest := by
    intro ch first
    exact (Bool.or_eq_false_iff.mp (stops ch first)).1
  cases part with
  | none =>
      cases rest with
      | nil => rfl
      | cons ch rest =>
          have outside := stops_first stops
          rw [written, List.nil_append, markedFrom, if_pos outside.2]
          rfl
  | some text =>
      have read : markedFrom mark inside .firstChar [] (text ++ rest) = some (text, rest) :=
        markedFrom_complete (by decide) all [] ends
      rw [written, List.cons_append, markedFrom, if_neg (by simp), read]
      rfl

end Parts

end Gfiber.Speedtest
