import Mathlib.Data.List.Basic

/-! Codes that replace each value of a text by a chunk of symbols, written to and
read from buffers that may be too short. A buffer keeps a place for the symbol
that ends it, and no chunk is written in part. -/

set_option autoImplicit false

namespace Gfiber.Lib.Escaping

variable {Value Symbol : Type}

/-- The loop of a writer, which stops before the first chunk that does not fit. -/
def encodeFrom (code : Value → List Symbol) (buflen : Nat) : Nat → List Value → List Symbol
  | _, [] => []
  | bufpos, value :: source =>
      if buflen ≤ bufpos + 1 then []
      else if buflen ≤ bufpos + (code value).length then []
      else code value ++ encodeFrom code buflen (bufpos + (code value).length) source

/-- The loop of a reader. What a symbol and those after it stand for is a chunk of
the output and the number of further symbols read, or the end of the loop. -/
def decodeFrom (next : Symbol → List Symbol → Option (List Value × Nat)) (buflen : Nat) :
    Nat → Nat → List Symbol → List Value
  | _, _, [] => []
  | bufpos, further + 1, _ :: source => decodeFrom next buflen bufpos further source
  | bufpos, 0, symbol :: source =>
      if buflen ≤ bufpos + 1 then []
      else
        match next symbol source with
        | none => []
        | some (chunk, further) =>
            if buflen < bufpos + chunk.length then []
            else chunk ++ decodeFrom next buflen (bufpos + chunk.length) further source

section Writing

variable {code : Value → List Symbol} {room bufpos : Nat} {value : Value} {source : List Value}

/-- The number of values whose chunks have room. -/
def fitting (code : Value → List Symbol) : Nat → List Value → Nat
  | _, [] => 0
  | room, value :: source =>
      if (code value).length ≤ room then fitting code (room - (code value).length) source + 1
      else 0

theorem fitting_le (code : Value → List Symbol) (room : Nat) (source : List Value) :
    fitting code room source ≤ source.length := by
  induction source generalizing room with
  | nil => exact Nat.le_refl 0
  | cons value source ih =>
      unfold fitting
      split
      · exact Nat.succ_le_succ (ih _)
      · exact Nat.zero_le _

/-- It is the largest number whose chunks have room together. -/
theorem le_fitting_iff {count : Nat} (inside : count ≤ source.length) :
    count ≤ fitting code room source ↔ ((source.take count).flatMap code).length ≤ room := by
  induction source generalizing room count with
  | nil =>
      have none : count = 0 := Nat.le_zero.mp inside
      simp [none, fitting]
  | cons value source ih =>
      cases count with
      | zero => simp
      | succ count =>
          rw [List.take_succ_cons, List.flatMap_cons, List.length_append]
          unfold fitting
          by_cases fits : (code value).length ≤ room
          · rw [if_pos fits, Nat.succ_le_succ_iff, ih (Nat.le_of_succ_le_succ inside)]
            omega
          · rw [if_neg fits]
            omega

theorem fitting_uniform {size : Nat} (positive : 0 < size)
    (uniform : ∀ value, (code value).length = size) (room : Nat) (source : List Value) :
    fitting code room source = min source.length (room / size) := by
  induction source generalizing room with
  | nil => simp [fitting]
  | cons value source ih =>
      unfold fitting
      rw [uniform, List.length_cons]
      by_cases fits : size ≤ room
      · rw [if_pos fits, ih, Nat.div_eq_sub_div positive fits, Nat.add_min_add_right]
      · rw [if_neg fits, Nat.div_eq_of_lt (Nat.not_le.mp fits), Nat.min_zero]

theorem encodeFrom_eq (some : ∀ value, code value ≠ []) (buflen bufpos : Nat)
    (source : List Value) : encodeFrom code buflen bufpos source =
      (source.take (fitting code (buflen - 1 - bufpos) source)).flatMap code := by
  induction source generalizing bufpos with
  | nil => simp [encodeFrom]
  | cons value source ih =>
      have chunk := List.length_pos_iff.mpr (some value)
      unfold encodeFrom fitting
      by_cases fits : (code value).length ≤ buflen - 1 - bufpos
      · rw [if_neg (by omega), if_neg (by omega), if_pos fits, ih, List.take_succ_cons,
          List.flatMap_cons, Nat.sub_sub _ bufpos]
      · rw [if_neg fits, List.take_zero, List.flatMap_nil]
        split
        · rfl
        · rw [if_pos (by omega)]

theorem mem_encodeFrom {buflen : Nat} {symbol : Symbol}
    (written : symbol ∈ encodeFrom code buflen bufpos source) :
    ∃ value ∈ source, symbol ∈ code value := by
  induction source generalizing bufpos with
  | nil => exact absurd written List.not_mem_nil
  | cons value source ih =>
      unfold encodeFrom at written
      split at written
      · exact absurd written List.not_mem_nil
      split at written
      · exact absurd written List.not_mem_nil
      rcases List.mem_append.mp written with here | later
      · exact ⟨value, List.mem_cons_self, here⟩
      · obtain ⟨other, member, found⟩ := ih later
        exact ⟨other, List.mem_cons_of_mem value member, found⟩

end Writing

section Reading

variable {Output : Type} {code : Value → List Symbol} {out : Value → List Output}
  {next : Symbol → List Symbol → Option (List Output × Nat)} {buflen bufpos : Nat}

/-- The reader takes the chunk of a value for what it stands for. -/
def ReadsValue (next : Symbol → List Symbol → Option (List Output × Nat))
    (code : Value → List Symbol) (out : Value → List Output) (value : Value) : Prop :=
  ∃ symbol chunk, code value = symbol :: chunk ∧
    ∀ rest, next symbol (chunk ++ rest) = some (out value, chunk.length)

def Reads (next : Symbol → List Symbol → Option (List Output × Nat)) (code : Value → List Symbol)
    (out : Value → List Output) : Prop :=
  ∀ value, ReadsValue next code out value

theorem decodeFrom_skip (chunk rest : List Symbol) :
    decodeFrom next buflen bufpos chunk.length (chunk ++ rest) =
      decodeFrom next buflen bufpos 0 rest := by
  induction chunk with
  | nil => rfl
  | cons symbol chunk ih => exact ih

theorem decodeFrom_full (full : buflen ≤ bufpos + 1) (further : Nat) (source : List Symbol) :
    decodeFrom next buflen bufpos further source = [] := by
  induction source generalizing further with
  | nil => cases further <;> rfl
  | cons symbol source ih =>
      cases further with
      | zero => exact if_pos full
      | succ further => exact ih further

theorem decodeFrom_chunk {value : Value} (reads : ReadsValue next code out value)
    (rest : List Symbol) (room : bufpos + 1 < buflen) (fits : bufpos + (out value).length ≤ buflen) :
    decodeFrom next buflen bufpos 0 (code value ++ rest) =
      out value ++ decodeFrom next buflen (bufpos + (out value).length) 0 rest := by
  obtain ⟨symbol, chunk, written, taken⟩ := reads
  rw [written, List.cons_append, decodeFrom, if_neg (Nat.not_le.mpr room), taken]
  dsimp only
  rw [if_neg (Nat.not_lt.mpr fits), decodeFrom_skip]

/-- A buffer that has room for the whole output gets it. -/
theorem decodeFrom_flatMap {values : List Value}
    (reads : ∀ value ∈ values, ReadsValue next code out value ∧ out value ≠ [])
    (room : bufpos + (values.flatMap out).length < buflen) :
    decodeFrom next buflen bufpos 0 (values.flatMap code) = values.flatMap out := by
  induction values generalizing bufpos with
  | nil => rfl
  | cons value values ih =>
      obtain ⟨⟨read, some⟩, others⟩ := List.forall_mem_cons.mp reads
      have length := List.length_pos_iff.mpr some
      rw [List.flatMap_cons, List.length_append] at room
      rw [List.flatMap_cons, List.flatMap_cons, decodeFrom_chunk read _ (by omega) (by omega),
        ih others (by omega)]

/-- When each chunk stands for one value, a shorter buffer gets what fits of them. -/
theorem decodeFrom_values {next : Symbol → List Symbol → Option (List Value × Nat)}
    (reads : Reads next code fun value => [value]) (values : List Value) :
    decodeFrom next buflen bufpos 0 (values.flatMap code) = values.take (buflen - 1 - bufpos) := by
  induction values generalizing bufpos with
  | nil => rw [List.take_nil]; rfl
  | cons value values ih =>
      by_cases full : buflen ≤ bufpos + 1
      · have none : buflen - 1 - bufpos = 0 := by omega
        rw [decodeFrom_full full, none, List.take_zero]
      · have more : buflen - 1 - bufpos = (buflen - 1 - (bufpos + 1)) + 1 := by omega
        rw [List.flatMap_cons, decodeFrom_chunk (reads value) _ (Nat.not_le.mp full)
          (by rw [List.length_singleton]; omega), List.length_singleton, ih, more,
          List.take_succ_cons, List.singleton_append]

end Reading

section RoundTrip

variable {code : Value → List Symbol} {encode : Nat → List Value → List Symbol}
  {decode : Nat → List Symbol → List Value}

/-- A writer writes the longest part of a text that its buffer has room for, and a
reader reads that part back, as far as its own buffer has room. -/
structure RoundTrips (code : Value → List Symbol) (encode : Nat → List Value → List Symbol)
    (decode : Nat → List Symbol → List Value) : Prop where
  written : ∀ buflen source, encode buflen source =
    (source.take (fitting code (buflen - 1) source)).flatMap code
  longest : ∀ buflen source count, count ≤ source.length →
    (count ≤ fitting code (buflen - 1) source ↔
      ((source.take count).flatMap code).length ≤ buflen - 1)
  read : ∀ buflen buflen' source, decode buflen' (encode buflen source) =
    source.take (min (fitting code (buflen - 1) source) (buflen' - 1))

theorem roundTrips {next : Symbol → List Symbol → Option (List Value × Nat)}
    (reads : Reads next code fun value => [value])
    (encodes : ∀ buflen source, encode buflen source =
      (source.take (fitting code (buflen - 1) source)).flatMap code)
    (decodes : ∀ buflen source, decode buflen source = decodeFrom next buflen 0 0 source) :
    RoundTrips code encode decode where
  written := encodes
  longest := fun _ _ _ inside => le_fitting_iff inside
  read := by
    intro buflen buflen' source
    rw [encodes, decodes, decodeFrom_values reads, List.take_take, Nat.min_comm, Nat.sub_zero]

theorem Reads.code_ne_nil {Output : Type} {out : Value → List Output}
    {next : Symbol → List Symbol → Option (List Output × Nat)} (reads : Reads next code out)
    (value : Value) : code value ≠ [] := by
  obtain ⟨symbol, chunk, written, -⟩ := reads value
  rw [written]
  exact List.cons_ne_nil symbol chunk

end RoundTrip

end Gfiber.Lib.Escaping
