import Gfiber.Logos.Severity

/-! When the severity of a record depends on nothing but the record. -/

set_option autoImplicit false

namespace Gfiber.Logos

open Lib

section Levels

def keywords : List (List Byte) :=
  severities.flatMap fun entry => entry.2.map bytesOf

/-- What is behind the record makes it start with a keyword that is longer than it. -/
def Completed (record behind : List Byte) : Prop :=
  ∃ keyword ∈ keywords, record.length < keyword.length ∧
    startsWithFolded (record ++ behind) keyword = true

/-- Neither the NUL nor the newline is in a keyword. -/
theorem keywords_without : ∀ stop ∈ [0, newline], ∀ keyword ∈ keywords,
    tolower stop ∉ keyword.map tolower := by
  decide +kernel

theorem mem_keywords {entry : Char × List String} (listed : entry ∈ severities) {keyword : String}
    (member : keyword ∈ entry.2) : bytesOf keyword ∈ keywords :=
  List.mem_flatMap.mpr ⟨entry, listed, List.mem_map_of_mem member⟩

theorem severity_congr {text other : List Byte} (same : ∀ keyword ∈ keywords,
    startsWithFolded text keyword = startsWithFolded other keyword) :
    severity text = severity other := by
  have entries (table : List (Char × List String)) (listed : ∀ entry ∈ table, entry ∈ severities) :
      table.find? (fun entry =>
          entry.2.any fun keyword => startsWithFolded text (bytesOf keyword)) =
        table.find? fun entry =>
          entry.2.any fun keyword => startsWithFolded other (bytesOf keyword) := by
    induction table with
    | nil => rfl
    | cons entry table ih =>
        have here : (entry.2.any fun keyword => startsWithFolded text (bytesOf keyword)) =
            entry.2.any fun keyword => startsWithFolded other (bytesOf keyword) := by
          rw [Bool.eq_iff_iff, List.any_eq_true, List.any_eq_true]
          refine exists_congr fun keyword => and_congr_right fun member => ?_
          rw [same _ (mem_keywords (listed entry List.mem_cons_self) member)]
        rw [List.find?_cons, List.find?_cons, here,
          ih fun later member => listed later (List.mem_cons_of_mem _ member)]
  rw [severity, entries severities fun _ member => member, severity]

theorem startsWithFolded_append {record behind keyword : List Byte}
    (fits : keyword.length ≤ record.length) :
    startsWithFolded (record ++ behind) keyword = startsWithFolded record keyword := by
  unfold startsWithFolded
  rw [Bool.eq_iff_iff, List.isPrefixOf_iff_prefix, List.isPrefixOf_iff_prefix, List.map_append]
  constructor
  · intro found
    exact List.prefix_of_prefix_length_le found (List.prefix_append _ _) (by simpa using fits)
  · intro found
    exact found.trans (List.prefix_append _ _)

theorem startsWithFolded_long {record keyword : List Byte} (longer : record.length < keyword.length) :
    startsWithFolded record keyword = false := by
  refine Bool.eq_false_iff.mpr fun found => ?_
  have fits := (List.isPrefixOf_iff_prefix.mp found).length_le
  rw [List.length_map, List.length_map] at fits
  exact absurd longer (Nat.not_lt.mpr fits)

/-- What no keyword has in it ends the comparison. -/
theorem not_completed_of_stop {record rest : List Byte} {stop : Byte}
    (outside : ∀ keyword ∈ keywords, tolower stop ∉ keyword.map tolower) :
    ¬Completed record (stop :: rest) := by
  intro completed
  obtain ⟨keyword, listed, longer, found⟩ := completed
  have folded := List.isPrefixOf_iff_prefix.mp found
  have inside : record.length < (keyword.map tolower).length := by rwa [List.length_map]
  have here := List.prefix_iff_getElem?.mp folded record.length inside
  rw [List.map_append, List.getElem?_append_right (by simp), List.length_map, Nat.sub_self] at here
  have same : tolower stop = (keyword.map tolower)[record.length] := Option.some.inj here
  exact outside keyword listed (same ▸ List.getElem_mem inside)

theorem severity_of_not_completed {record behind : List Byte} (open_end : ¬Completed record behind) :
    severity (record ++ behind) = severity record := by
  apply severity_congr
  intro keyword listed
  cases Nat.lt_or_ge record.length keyword.length with
  | inl longer =>
      rw [startsWithFolded_long longer]
      exact Bool.eq_false_iff.mpr fun found => open_end ⟨keyword, listed, longer, found⟩
  | inr fits => exact startsWithFolded_append fits

theorem severity_ne_default {text keyword : List Byte} (listed : keyword ∈ keywords)
    (found : startsWithFolded text keyword = true) : severity text ≠ '7' := by
  unfold severity
  split
  case h_1 entry first =>
    have digits : ∀ entry ∈ severities, entry.1 ≠ '7' := by decide
    exact digits entry (List.mem_of_find?_eq_some first)
  case h_2 none =>
    obtain ⟨entry, member, inside⟩ := List.mem_flatMap.mp listed
    obtain ⟨word, one, same⟩ := List.mem_map.mp inside
    have no := List.find?_eq_none.mp none entry member
    refine absurd (List.any_eq_true.mpr ⟨word, one, ?_⟩) no
    rw [same]
    exact found

/-- No keyword begins another one, so that a completed record had none. -/
theorem severity_of_completed {record behind : List Byte} (completed : Completed record behind) :
    severity record = '7' := by
  obtain ⟨keyword, listed, longer, found⟩ := completed
  have apart : ∀ first ∈ keywords, ∀ second ∈ keywords,
      first.map tolower <+: second.map tolower → first.length = second.length := by
    decide +kernel
  unfold severity
  split
  case h_1 entry first =>
    have held := List.find?_some first
    obtain ⟨word, member, start⟩ := List.any_eq_true.mp held
    have own := mem_keywords (List.mem_of_find?_eq_some first) member
    have inside := List.isPrefixOf_iff_prefix.mp start
    have shorter : (bytesOf word).length ≤ record.length := by simpa using inside.length_le
    have whole : (bytesOf word).map tolower <+: (record ++ behind).map tolower := by
      rw [List.map_append]
      exact inside.trans (List.prefix_append _ _)
    have begins := List.prefix_of_prefix_length_le whole (List.isPrefixOf_iff_prefix.mp found)
      (by rw [List.length_map, List.length_map]; omega)
    have equal := apart _ own _ listed begins
    omega
  case h_2 => rfl

theorem severity_append_iff {record behind : List Byte} :
    severity (record ++ behind) = severity record ↔ ¬Completed record behind := by
  constructor
  · intro same completed
    obtain ⟨keyword, listed, longer, found⟩ := completed
    refine severity_ne_default listed found (same.trans ?_)
    exact severity_of_completed ⟨keyword, listed, longer, found⟩
  · exact severity_of_not_completed

end Levels

namespace Buffered

variable {admits : Nat → Bool} {buffered : Buffered} {record behind : List Byte}

/-- The digits are those of the records alone. -/
def Isolated (buffered : Buffered) : Prop :=
  ∀ entry ∈ buffered.written, entry.2 = severity entry.1

/-- A record at the end of the input, without control characters, that is let through is not
completed by what is behind it in the buffer. -/
def EndGuarded (admits : Nat → Bool) (buffered : Buffered) : Prop :=
  hasControl buffered.framer.used = false → admits buffered.framer.records.length = true →
    ¬Completed buffered.framer.used buffered.behind

/-- Only the end of the input and a failed read flush a record without a newline. -/
def Guarded (admits : Nat → Bool) (buffered : Buffered) (got : Got) : Prop :=
  let buffered := buffered.makeRoom admits
  match got with
  | .endOfInput => buffered.framer.used ≠ [] → buffered.EndGuarded admits
  | .failed => buffered.EndGuarded admits
  | _ => True

section Framing

@[simp] theorem framer_flush :
    (buffered.flush admits record behind).framer = buffered.framer.flush record := rfl

theorem framer_makeRoom : (buffered.makeRoom admits).framer = buffered.framer.makeRoom := by
  unfold makeRoom Framer.makeRoom
  by_cases full : buffered.framer.used.length = maxLineLength
  · rw [if_pos full, if_pos full]
    rfl
  · rw [if_neg full, if_neg full]

theorem framer_endLine :
    (buffered.endLine admits behind).framer = buffered.framer.endLine := by
  unfold endLine Framer.endLine
  cases overlong : buffered.framer.overlong with
  | true => simp [Framer.flush, overlong]
  | false => simp [Framer.flush, overlong]

theorem framer_scan (chunk : List Byte) :
    (buffered.scan admits behind chunk).framer = buffered.framer.scan chunk := by
  induction chunk generalizing buffered with
  | nil => rfl
  | cons byte rest ih =>
      rw [scan, Framer.scan]
      by_cases ends : byte = newline
      · rw [if_pos ends, if_pos ends, ih, framer_endLine]
      · rw [if_neg ends, if_neg ends, ih]

/-- The records are cut as they are without regard to the rest of the buffer. -/
theorem framer_turn (got : Got) : (buffered.turn admits got).framer = buffered.framer.turn got := by
  unfold turn Framer.turn
  cases got with
  | endOfInput =>
      have room : buffered.framer.makeRoom = (buffered.makeRoom admits).framer :=
        framer_makeRoom.symm
      simp only [room]
      by_cases some_used : (buffered.makeRoom admits).framer.used ≠ []
      · simp [some_used]
      · simp [not_not.mp some_used]
  | interrupted => exact framer_makeRoom
  | failed => simp only [framer_flush, framer_makeRoom]
  | data chunk => simp only [framer_scan, framer_makeRoom]

end Framing

section Flushing

theorem isolated_flush_iff : (buffered.flush admits record behind).Isolated ↔
    buffered.Isolated ∧ (hasControl record = false →
      admits buffered.framer.records.length = true → ¬Completed record behind) := by
  unfold flush Isolated
  cases admitted : admits buffered.framer.records.length with
  | false => simp
  | true =>
      simp only [if_true, List.forall_mem_append, List.forall_mem_singleton]
      refine and_congr_right fun _ => ?_
      cases control : hasControl record with
      | true =>
          have ended : severity (fixBuf record ++ [0]) = severity (fixBuf record) :=
            severity_of_not_completed (not_completed_of_stop (keywords_without 0 (by simp)))
          simpa [cleaned, control] using ended
      | false => simp [cleaned, control, severity_append_iff]

/-- A record that is followed by what no keyword has in it. -/
theorem isolated_flush_stop {stop : Byte}
    (outside : ∀ keyword ∈ keywords, tolower stop ∉ keyword.map tolower) :
    (buffered.flush admits record (stop :: behind)).Isolated ↔ buffered.Isolated := by
  rw [isolated_flush_iff]
  exact and_iff_left fun _ _ => not_completed_of_stop outside

theorem isolated_makeRoom : (buffered.makeRoom admits).Isolated ↔ buffered.Isolated := by
  unfold makeRoom
  by_cases full : buffered.framer.used.length = maxLineLength
  · rw [if_pos full]
    refine isolated_flush_iff.trans (and_iff_left fun _ _ completed => ?_)
    obtain ⟨keyword, listed, longer, -⟩ := completed
    have short : ∀ keyword ∈ keywords, keyword.length ≤ maxLineLength := by decide
    exact absurd longer (Nat.not_lt.mpr (full ▸ short keyword listed))
  · rw [if_neg full]

theorem isolated_endLine :
    (buffered.endLine admits (newline :: behind)).Isolated ↔ buffered.Isolated := by
  have line : (buffered.flush admits buffered.framer.used (newline :: behind)).Isolated ↔
      buffered.Isolated := isolated_flush_stop (keywords_without newline (by simp))
  unfold endLine
  generalize buffered.flush admits buffered.framer.used (newline :: behind) = next at line
  dsimp only
  by_cases overlong : next.framer.overlong = true
  · rw [if_pos overlong]
    have warned : (next.flush admits overlongWarning [0]).Isolated ↔ next.Isolated :=
      isolated_flush_stop (keywords_without 0 (by simp))
    exact warned.trans line
  · rw [if_neg overlong]
    exact line

theorem isolated_scan (chunk : List Byte) :
    (buffered.scan admits behind chunk).Isolated ↔ buffered.Isolated := by
  induction chunk generalizing buffered with
  | nil => exact Iff.rfl
  | cons byte rest ih =>
      rw [scan]
      by_cases ends : byte = newline
      · subst ends
        rw [if_pos rfl, ih]
        exact isolated_endLine
      · rw [if_neg ends, ih]
        exact Iff.rfl

theorem isolated_turn (got : Got) : (buffered.turn admits got).Isolated ↔
    buffered.Isolated ∧ buffered.Guarded admits got := by
  have before : buffered.Isolated ↔ (buffered.makeRoom admits).Isolated := isolated_makeRoom.symm
  rw [before]
  unfold turn Guarded
  cases got with
  | endOfInput =>
      by_cases some_used : (buffered.makeRoom admits).framer.used ≠ []
      · simp only [if_pos some_used]
        exact isolated_flush_iff.trans (and_congr_right fun _ =>
          ⟨fun guarded _ => guarded, fun guarded => guarded some_used⟩)
      · simp only [if_neg some_used]
        exact (and_iff_left fun more => absurd more some_used).symm
  | interrupted => exact (and_iff_left trivial).symm
  | failed => exact isolated_flush_iff
  | data chunk => exact (isolated_scan chunk).trans (and_iff_left trivial).symm

end Flushing

section Runs

/-- In every run the digits are those of the records alone just when no record at its end is
completed by what was left in the buffer; and two such runs give equal records equal digits. -/
theorem severity_isolated_iff {admits admits' : Nat → Bool} {garbage garbage' : List Byte}
    {trace trace' : List (Buffered × Got)} {finish finish' : Buffered}
    (run : Run (Step admits) (.start garbage) trace finish)
    (other : Run (Step admits') (.start garbage') trace' finish') :
    (Throughout Isolated trace finish ↔ StepsMeet (Guarded admits) trace) ∧
      (StepsMeet (Guarded admits) trace → StepsMeet (Guarded admits') trace' →
        ∀ (i j : Nat) (record : List Byte) (digit digit' : Char),
          finish.written[i]? = some (record, digit) →
            finish'.written[j]? = some (record, digit') → digit = digit') := by
  have exact_run {admits : Nat → Bool} {garbage : List Byte} {trace : List (Buffered × Got)}
      {finish : Buffered} (run : Run (Step admits) (.start garbage) trace finish) :
      Throughout Isolated trace finish ↔ StepsMeet (Guarded admits) trace := by
    refine run.throughout_iff_met (fun _ member => absurd member (by simp [start])) id ?_ ?_
    · intro state got next isolated guarded step
      obtain ⟨-, same, -⟩ := step
      exact same ▸ (isolated_turn got).mpr ⟨isolated, guarded⟩
    · intro state got next _ step isolated
      obtain ⟨-, same, -⟩ := step
      exact ((isolated_turn got).mp (same ▸ isolated)).2
  refine ⟨exact_run run, fun guarded guarded' i j record digit digit' first second => ?_⟩
  have own := ((exact_run run).mpr guarded).2 _ (List.mem_of_getElem? first)
  have others := ((exact_run other).mpr guarded').2 _ (List.mem_of_getElem? second)
  exact own.trans others.symm

section Inputs

/-- Everything that is read is let through, from a buffer with nothing in it. -/
def runOf (gots : List Got) : Buffered :=
  gots.foldl (turn fun _ => true) (.start (List.replicate maxLineLength 0))

def traceFor (gots : List Got) : List (Buffered × Got) :=
  traceOf (turn fun _ => true) (.start (List.replicate maxLineLength 0)) gots

/-- A line, and then a record without a newline at the end of the input. -/
def lineAndRest (line : String) : List Got :=
  [.data (bytesOf line), .data (bytesOf "w"), .endOfInput]

theorem run_lineAndRest {line : String} (either : line = "x:yz\n" ∨ line = "xy\n") :
    Run (Step fun _ => true) (.start (List.replicate maxLineLength 0))
      (traceFor (lineAndRest line)) (runOf (lineAndRest line)) := by
  apply Run.of_trace
  simp only [StepsMeet, traceOf, lineAndRest, List.mem_cons, List.not_mem_nil, or_false,
    forall_eq_or_imp, forall_eq]
  refine ⟨⟨rfl, rfl, fun chunk read => ?_⟩, ⟨?_, rfl, fun chunk read => ?_⟩, ?_, rfl,
    fun chunk read => ?_⟩
  · cases read
    cases either with
    | inl same => subst same; decide +kernel
    | inr same => subst same; decide +kernel
  · cases either with
    | inl same => subst same; decide +kernel
    | inr same => subst same; decide +kernel
  · cases read
    cases either with
    | inl same => subst same; decide +kernel
    | inr same => subst same; decide +kernel
  · cases either with
    | inl same => subst same; decide +kernel
    | inr same => subst same; decide +kernel
  · cases read

theorem guarded_plain : StepsMeet (Guarded fun _ => true) (traceFor (lineAndRest "xy\n")) := by
  intro entry member
  simp only [traceFor, lineAndRest, traceOf, List.mem_cons, List.not_mem_nil, or_false] at member
  rcases member with rfl | rfl | rfl
  · trivial
  · trivial
  · unfold Guarded EndGuarded Completed
    decide +kernel

theorem severity_isolated_plain :
    StepsMeet (Guarded fun _ => true) (traceFor (lineAndRest "xy\n")) ∧
      Throughout Isolated (traceFor (lineAndRest "xy\n")) (runOf (lineAndRest "xy\n")) ∧
      ∀ (i j : Nat) (record : List Byte) (digit digit' : Char),
        (runOf (lineAndRest "xy\n")).written[i]? = some (record, digit) →
          (runOf (lineAndRest "xy\n")).written[j]? = some (record, digit') → digit = digit' := by
  obtain ⟨isolated, equal⟩ :=
    severity_isolated_iff (run_lineAndRest (.inr rfl)) (run_lineAndRest (.inr rfl))
  exact ⟨guarded_plain, isolated.mpr guarded_plain, equal guarded_plain guarded_plain⟩

/-- The rest `w` is completed by the colon that the line before it has left in the buffer. -/
theorem severity_leaks : ¬∀ (admits : Nat → Bool) (garbage : List Byte)
    (trace trace' : List (Buffered × Got)) (finish finish' : Buffered),
    Run (Step admits) (.start garbage) trace finish →
      Run (Step admits) (.start garbage) trace' finish' →
        ∀ (i : Nat) (record : List Byte) (digit digit' : Char),
          finish.written[i]? = some (record, digit) →
            finish'.written[i]? = some (record, digit') → digit = digit' := by
  intro always
  have same := always _ _ _ _ _ _ (run_lineAndRest (.inl rfl)) (run_lineAndRest (.inr rfl)) 1
    (bytesOf "w") '4' '7' (by decide +kernel) (by decide +kernel)
  cases same

end Inputs

end Runs

end Buffered

end Gfiber.Logos
