import Gfiber.Logos.Framing

/-! The records depend on the bytes that come in and not on how they are read. -/

set_option autoImplicit false

namespace Gfiber.Logos

open Lib

section Specification

def fullPieces (line : List Byte) : List (List Byte) :=
  (List.range (line.length / maxLineLength)).map fun index =>
    (line.drop (maxLineLength * index)).take maxLineLength

def lastPiece (line : List Byte) : List Byte :=
  line.drop (maxLineLength * (line.length / maxLineLength))

/-- The records of a line that ends with a newline. -/
def lineRecords (line : List Byte) : List (List Byte) :=
  fullPieces line ++ [lastPiece line] ++
    if maxLineLength ≤ line.length then [overlongWarning] else []

/-- The records of what comes after the last newline. -/
def tailRecords (tail : List Byte) : List (List Byte) :=
  fullPieces tail ++ if lastPiece tail = [] then [] else [lastPiece tail]

/-- The records of a whole input. -/
def recordsOf (input : List Byte) : List (List Byte) :=
  let lines := input.splitOn newline
  lines.dropLast.flatMap lineRecords ++ tailRecords (lines.getLastD [])

end Specification

section Pieces

theorem fullPieces_cons {piece : List Byte} (full : piece.length = maxLineLength)
    (rest : List Byte) : fullPieces (piece ++ rest) = piece :: fullPieces rest := by
  have count : (piece ++ rest).length / maxLineLength = rest.length / maxLineLength + 1 := by
    rw [List.length_append, full, Nat.add_div_left _ (by decide)]
  rw [fullPieces, count, List.range_succ_eq_map, List.map_cons, List.map_map, Nat.mul_zero,
    List.drop_zero, ← full, List.take_left, full, fullPieces]
  congr 1
  apply List.map_congr_left
  intro index _
  simp only [Function.comp_apply, Nat.succ_eq_add_one]
  rw [Nat.mul_add, Nat.mul_one, Nat.add_comm, ← List.drop_drop, ← full, List.drop_left]

theorem lastPiece_cons {piece : List Byte} (full : piece.length = maxLineLength)
    (rest : List Byte) : lastPiece (piece ++ rest) = lastPiece rest := by
  have count : (piece ++ rest).length / maxLineLength = rest.length / maxLineLength + 1 := by
    rw [List.length_append, full, Nat.add_div_left _ (by decide)]
  rw [lastPiece, count, Nat.mul_add, Nat.mul_one, Nat.add_comm, ← List.drop_drop, ← full,
    List.drop_left, full, lastPiece]

/-- Pieces of the full length and a shorter rest are the pieces of their joint line. -/
theorem pieces_flatten {pieces : List (List Byte)} {rest : List Byte}
    (full : ∀ piece ∈ pieces, piece.length = maxLineLength) (short : rest.length < maxLineLength) :
    fullPieces (pieces.flatten ++ rest) = pieces ∧ lastPiece (pieces.flatten ++ rest) = rest := by
  induction pieces with
  | nil =>
      have none : rest.length / maxLineLength = 0 := Nat.div_eq_of_lt short
      constructor
      · rw [List.flatten_nil, List.nil_append, fullPieces, none]
        rfl
      · rw [List.flatten_nil, List.nil_append, lastPiece, none, Nat.mul_zero, List.drop_zero]
  | cons piece pieces ih =>
      have first := full piece List.mem_cons_self
      obtain ⟨same, last⟩ := ih fun other member => full other (List.mem_cons_of_mem _ member)
      rw [List.flatten_cons, List.append_assoc, fullPieces_cons first, lastPiece_cons first]
      exact ⟨by rw [same], last⟩

theorem maxLineLength_le_flatten {pieces : List (List Byte)} {rest : List Byte}
    (full : ∀ piece ∈ pieces, piece.length = maxLineLength) (short : rest.length < maxLineLength) :
    maxLineLength ≤ (pieces.flatten ++ rest).length ↔ pieces ≠ [] := by
  cases pieces with
  | nil => simp [short]
  | cons piece pieces =>
      have first := full piece List.mem_cons_self
      simp only [List.flatten_cons, List.append_assoc, List.length_append, first]
      simp

end Pieces

section Lines

/-- The input so far: whole lines, the pieces of the current line that have been
flushed, and the bytes in use. -/
structure Framed (input : List Byte) (lines pieces : List (List Byte)) (framer : Framer) :
    Prop where
  input_eq : input = lines.flatMap (· ++ [newline]) ++ (pieces.flatten ++ framer.used)
  whole : ∀ line ∈ lines, newline ∉ line
  unbroken : newline ∉ pieces.flatten ++ framer.used
  full : ∀ piece ∈ pieces, piece.length = maxLineLength
  overlong_iff : framer.overlong ↔ pieces ≠ []
  records_eq : framer.records = lines.flatMap lineRecords ++ pieces

variable {input : List Byte} {lines pieces : List (List Byte)} {framer : Framer}

theorem Framed.push (framed : Framed input lines pieces framer) {byte : Byte}
    (inside : byte ≠ newline) :
    Framed (input ++ [byte]) lines pieces { framer with used := framer.used ++ [byte] } where
  input_eq := by
    rw [framed.input_eq]
    simp only [List.append_assoc]
  whole := framed.whole
  unbroken := by
    rw [← List.append_assoc, List.mem_append, List.mem_singleton, not_or]
    exact ⟨framed.unbroken, Ne.symm inside⟩
  full := framed.full
  overlong_iff := framed.overlong_iff
  records_eq := framed.records_eq

theorem Framed.makeRoom (framed : Framed input lines pieces framer)
    (fits : framer.used.length ≤ maxLineLength) :
    ∃ pieces, Framed input lines pieces framer.makeRoom ∧
      framer.makeRoom.used.length < maxLineLength := by
  rw [Framer.makeRoom]
  split
  case isTrue filled =>
    refine ⟨pieces ++ [framer.used], ⟨?_, framed.whole, ?_, ?_, ?_, ?_⟩, Nat.zero_lt_succ _⟩
    · rw [framed.input_eq]
      simp
    · simpa using framed.unbroken
    · intro piece member
      rcases List.mem_append.mp member with earlier | last
      · exact framed.full piece earlier
      · rw [List.mem_singleton.mp last, filled]
    · simp
    · simp [Framer.flush, framed.records_eq]
  case isFalse room => exact ⟨pieces, framed, Nat.lt_of_le_of_ne fits room⟩

theorem Framed.endLine (framed : Framed input lines pieces framer)
    (short : framer.used.length < maxLineLength) :
    Framed (input ++ [newline]) (lines ++ [pieces.flatten ++ framer.used]) [] framer.endLine := by
  obtain ⟨same, last⟩ := pieces_flatten framed.full short
  have cut := maxLineLength_le_flatten framed.full short
  have records : framer.endLine.records =
      (lines ++ [pieces.flatten ++ framer.used]).flatMap lineRecords := by
    rw [List.flatMap_append, List.flatMap_singleton, lineRecords, same, last]
    by_cases long : pieces = []
    · have whole : framer.overlong = false := by
        simpa [long] using framed.overlong_iff
      rw [if_neg fun longer => cut.mp longer long]
      simp [Framer.endLine, Framer.flush, whole, framed.records_eq]
    · have split : framer.overlong = true := framed.overlong_iff.mpr long
      rw [if_pos (cut.mpr long)]
      simp [Framer.endLine, Framer.flush, split, framed.records_eq]
  refine ⟨?_, ?_, by simp [Framer.endLine], by simp, by simp [Framer.endLine], ?_⟩
  · rw [framed.input_eq]
    simp [Framer.endLine, List.flatMap_append]
  · intro line member
    rcases List.mem_append.mp member with earlier | current
    · exact framed.whole line earlier
    · rw [List.mem_singleton.mp current]
      exact framed.unbroken
  · rw [records, List.append_nil]

theorem Framed.scan (framed : Framed input lines pieces framer) {chunk : List Byte}
    (fits : framer.used.length + chunk.length ≤ maxLineLength) :
    ∃ lines pieces, Framed (input ++ chunk) lines pieces (framer.scan chunk) ∧
      (framer.scan chunk).used.length ≤ maxLineLength := by
  induction chunk generalizing framer input lines pieces with
  | nil => exact ⟨lines, pieces, by simpa [Framer.scan] using framed, fits⟩
  | cons byte chunk ih =>
      rw [List.length_cons] at fits
      rw [Framer.scan, List.append_cons]
      split
      case isTrue ends =>
        subst ends
        exact ih (framed.endLine (by omega)) (by simp only [Framer.endLine, List.length_nil]; omega)
      case isFalse inside =>
        refine ih (framed.push inside) ?_
        simp only [List.length_append, List.length_singleton]
        omega

theorem splitOn_lines {lines : List (List Byte)} {tail : List Byte}
    (whole : ∀ line ∈ lines, newline ∉ line) (unbroken : newline ∉ tail) :
    (lines.flatMap (· ++ [newline]) ++ tail).splitOn newline = lines ++ [tail] := by
  induction lines with
  | nil => exact List.splitOn_eq_singleton unbroken
  | cons line lines ih =>
      have rest := ih fun other member => whole other (List.mem_cons_of_mem _ member)
      rw [List.flatMap_cons, List.append_assoc, List.append_assoc, List.singleton_append,
        List.splitOn_append_cons_self_of_not_mem (whole line List.mem_cons_self), rest,
        List.cons_append]

/-- At the end of the input the rest of the last line is flushed. -/
theorem Framed.recordsOf (framed : Framed input lines pieces framer)
    (short : framer.used.length < maxLineLength) :
    recordsOf input = framer.records ++ if framer.used = [] then [] else [framer.used] := by
  obtain ⟨same, last⟩ := pieces_flatten framed.full short
  rw [framed.input_eq, Logos.recordsOf, splitOn_lines framed.whole framed.unbroken,
    List.dropLast_concat, List.getLastD_concat, tailRecords, same, last, framed.records_eq,
    List.append_assoc]

end Lines

section Runs

theorem inputOf_append (gots more : List Got) : inputOf (gots ++ more) = inputOf gots ++ inputOf more :=
  List.flatMap_append

theorem exitStatus_makeRoom (framer : Framer) : framer.makeRoom.exitStatus = framer.exitStatus := by
  rw [Framer.makeRoom]
  split <;> rfl

theorem exitStatus_scan (framer : Framer) (chunk : List Byte) :
    (framer.scan chunk).exitStatus = framer.exitStatus := by
  induction chunk generalizing framer with
  | nil => rfl
  | cons byte chunk ih =>
      rw [Framer.scan]
      split
      · rw [ih, Framer.endLine]
        dsimp only
        split <;> rfl
      · rw [ih]

/-- What has been read is framed, as long as the loop goes on and when it ends. -/
structure Progress (input : List Byte) (framer : Framer) : Prop where
  reading : framer.exitStatus = none → ∃ lines pieces, Framed input lines pieces framer ∧
    framer.used.length ≤ maxLineLength
  ended : framer.exitStatus = some 0 → framer.records = recordsOf input

theorem Progress.turn {input : List Byte} {framer next : Framer} {got : Got}
    (progress : Progress input framer) (step : Framer.Step framer got next) :
    Progress (input ++ inputOf [got]) next ∧ framer.makeRoom.used.length < maxLineLength := by
  obtain ⟨running, rfl, readable⟩ := step
  obtain ⟨lines, _, framed, fits⟩ := progress.reading running
  obtain ⟨pieces, framed, room⟩ := framed.makeRoom fits
  have status := (exitStatus_makeRoom framer).trans running
  refine ⟨?_, room⟩
  cases got with
  | data chunk =>
      obtain ⟨_, small⟩ := readable chunk rfl
      have scanned := @Framed.scan _ _ _ _ framed chunk (by omega)
      have ongoing : (framer.turn (.data chunk)).exitStatus = none :=
        (exitStatus_scan _ chunk).trans status
      refine ⟨fun _ => by simpa [inputOf, Framer.turn] using scanned, fun done => ?_⟩
      rw [ongoing] at done
      cases done
  | endOfInput =>
      refine ⟨fun more => by simp [Framer.turn] at more, fun _ => ?_⟩
      have records := framed.recordsOf room
      simp only [inputOf, List.flatMap_cons, List.flatMap_nil, List.append_nil, records]
      simp only [Framer.turn, ne_eq, ite_not]
      split
      · rw [List.append_nil]
      · rfl
  | interrupted =>
      refine ⟨fun _ => ⟨lines, pieces, by simpa [inputOf, Framer.turn] using framed, room.le⟩,
        fun done => ?_⟩
      rw [Framer.turn, status] at done
      cases done
  | failed =>
      exact ⟨fun more => by simp [Framer.turn] at more, fun done => by simp [Framer.turn] at done⟩

theorem Progress.run {finish : Framer} {trace : List (Framer × Got)}
    (run : Run Framer.Step .start trace finish) :
    Progress (inputOf (trace.map Prod.snd)) finish ∧
      StepsMeet (fun framer _ => framer.makeRoom.used.length < maxLineLength) trace := by
  generalize begin : Framer.start = start at run
  induction run with
  | nil =>
      subst begin
      refine ⟨⟨fun _ => ⟨[], [], ⟨rfl, by simp, by simp [Framer.start], by simp,
        by simp [Framer.start], rfl⟩, Nat.zero_le _⟩, fun done => ?_⟩, by simp [StepsMeet]⟩
      cases done
  | snoc _ step ih =>
      obtain ⟨progress, rooms⟩ := ih
      obtain ⟨after, room⟩ := progress.turn step
      rw [List.map_append, inputOf_append]
      exact ⟨after, rooms.snoc room⟩

theorem exitStatus_turn {framer : Framer} {got : Got} (goes_on : got.GoesOn) :
    (framer.turn got).exitStatus = framer.exitStatus := by
  cases got with
  | data chunk => exact (exitStatus_scan _ chunk).trans (exitStatus_makeRoom framer)
  | interrupted => exact exitStatus_makeRoom framer
  | endOfInput => cases goes_on
  | failed => cases goes_on

/-- The loop goes on as long as bytes come in or a read is interrupted. -/
theorem run_reads {gots : List Got} {start : Framer} (running : start.exitStatus = none)
    (goes_on : ∀ got ∈ gots, got.GoesOn)
    (fits : StepsMeet Framer.Fits (traceOf Framer.turn start gots)) :
    Run Framer.Step start (traceOf Framer.turn start gots) (gots.foldl Framer.turn start) ∧
      (gots.foldl Framer.turn start).exitStatus = none := by
  induction gots generalizing start with
  | nil => exact ⟨.nil, running⟩
  | cons got gots ih =>
      obtain ⟨first, rest⟩ := List.forall_mem_cons.mp goes_on
      obtain ⟨fit, fits⟩ := List.forall_mem_cons.mp fits
      obtain ⟨run, ongoing⟩ := ih ((exitStatus_turn first).trans running) rest fits
      exact ⟨.cons ⟨running, rfl, fit⟩ run, ongoing⟩

/-- However the input is read, the loop ends at its end and the same records come out of
it; and there is room in the buffer before every read. -/
theorem framer_frames {gots : List Got} (goes_on : ∀ got ∈ gots, got.GoesOn)
    (fits : StepsMeet Framer.Fits (traceOf Framer.turn .start gots)) :
    ∃ finish, Run Framer.Step .start (traceOf Framer.turn .start (gots ++ [.endOfInput])) finish ∧
      finish.exitStatus = some 0 ∧ finish.records = recordsOf (inputOf gots) ∧
      StepsMeet (fun framer _ => framer.makeRoom.used.length < maxLineLength)
        (traceOf Framer.turn .start (gots ++ [.endOfInput])) := by
  obtain ⟨run, ongoing⟩ := run_reads rfl goes_on fits
  have last : Framer.Step (gots.foldl Framer.turn .start) .endOfInput
      ((gots.foldl Framer.turn .start).turn .endOfInput) := ⟨ongoing, rfl, by rintro _ ⟨⟩⟩
  have whole := run.snoc last
  have same : traceOf Framer.turn .start (gots ++ [.endOfInput]) =
      traceOf Framer.turn .start gots ++ [(gots.foldl Framer.turn .start, .endOfInput)] :=
    traceOf_append Framer.turn .start gots [.endOfInput]
  obtain ⟨progress, rooms⟩ := Progress.run whole
  have records := progress.ended rfl
  rw [← same, labels_traceOf, inputOf_append] at records
  rw [same]
  exact ⟨_, whole, rfl, by simpa [inputOf] using records, rooms⟩

/-- A line that is longer than the buffer, in three reads, and a rest. -/
def longLine : List Got :=
  [.data (List.replicate 700 (ascii 'a')), .interrupted, .data (List.replicate 68 (ascii 'b')),
    .data (bytesOf "cut\n\nrest")]

theorem framer_frames_longLine : ∃ finish,
    Run Framer.Step .start (traceOf Framer.turn .start (longLine ++ [.endOfInput])) finish ∧
      finish.exitStatus = some 0 ∧
      finish.records = [List.replicate 700 (ascii 'a') ++ List.replicate 68 (ascii 'b'),
        bytesOf "cut", overlongWarning, [], bytesOf "rest"] ∧
      StepsMeet (fun framer _ => framer.makeRoom.used.length < maxLineLength)
        (traceOf Framer.turn .start (longLine ++ [.endOfInput])) := by
  have goes_on : ∀ got ∈ longLine, got.GoesOn := by
    simp only [longLine, List.forall_mem_cons]
    exact ⟨trivial, trivial, trivial, trivial, by simp⟩
  have fits : StepsMeet Framer.Fits (traceOf Framer.turn .start longLine) := by
    simp only [StepsMeet, traceOf, longLine, List.mem_cons, List.not_mem_nil, or_false,
      forall_eq_or_imp, forall_eq]
    refine ⟨?_, ?_, ?_, ?_⟩
    · rintro chunk ⟨⟩
      decide +kernel
    · rintro chunk ⟨⟩
    · rintro chunk ⟨⟩
      decide +kernel
    · rintro chunk ⟨⟩
      decide +kernel
  have cut : recordsOf (inputOf longLine) =
      [List.replicate 700 (ascii 'a') ++ List.replicate 68 (ascii 'b'), bytesOf "cut",
        overlongWarning, [], bytesOf "rest"] := by
    decide +kernel
  rw [← cut]
  exact framer_frames goes_on fits

end Runs

end Gfiber.Logos
