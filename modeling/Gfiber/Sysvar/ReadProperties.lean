import Mathlib.Logic.Relation
import Gfiber.Sysvar.CodecProperties

/-! The bytes that `load_var` reads. The loop runs over memory that goes on
after the block, and each read leaves its index. -/

set_option autoImplicit false

namespace Gfiber.Sysvar

open Lib

abbrev Memory := Nat → Byte

/-- The block and whatever comes after it. -/
def Block.memory (block : Block) (beyond : Memory) : Memory :=
  fun index => (block.bytes[index]?).getD (beyond index)

section Copying

/-- The indices that `sysvar_copy` to a string reads. -/
def scanned (memory : Memory) (offset : Nat) : Nat → List Nat
  | 0 => []
  | len + 1 => offset :: if memory offset = 0xff then [] else scanned memory (offset + 1) len

def copied (memory : Memory) (offset : Nat) : Nat → List Byte
  | 0 => []
  | len + 1 =>
      if memory offset = 0xff then [] else memory offset :: copied memory (offset + 1) len

end Copying

def recordLen (memory : Memory) (offset : Nat) : Nat :=
  ((memory (offset + nameSize)).toNat <<< 8) + (memory (offset + nameSize + 1)).toNat

def recordValue (memory : Memory) (offset : Nat) : CString :=
  .ofBytes (copied memory (offset + nameSize + 2) (recordLen memory offset))

namespace SysvarBuf

/-- The loop of `load_var` with the indices it reads. -/
def loadReads (memory : Memory) (i : Nat) (buf : SysvarBuf) : List Nat × SysvarBuf × ErrorCode :=
  if i < totalLen then
    if memory i = 0xff then ([i], buf, .success)
    else
      let name := CString.ofBytes (copied memory i nameSize)
      let header := i :: (scanned memory i nameSize ++ [i + nameSize, i + nameSize + 1])
      let len := recordLen memory i
      if buf.freeLen < len then (header, buf, .paramErr)
      else
        let reads := header ++ scanned memory (i + nameSize + 2) len
        match buf.setVar name (recordValue memory i) with
        | (buf, .success) =>
            let rest := loadReads memory (i + nameSize + 2 + len) buf
            (reads ++ rest.1, rest.2)
        | stopped => (reads, stopped)
  else ([], buf, .success)
termination_by totalLen - i

def loadVarReads (buf : SysvarBuf) (beyond : Memory) : List Nat × SysvarBuf × ErrorCode :=
  match buf.clearVar with
  | (buf, .success) => loadReads (buf.data.memory beyond) 0 buf
  | stopped => ([], stopped)

end SysvarBuf

section Scanning

variable {memory : Memory} {offset len limit : Nat}

theorem scanned_range {index : Nat} (member : index ∈ scanned memory offset len) :
    offset ≤ index ∧ index < offset + len := by
  induction len generalizing offset with
  | zero => cases member
  | succ len ih =>
      rw [scanned] at member
      rcases List.mem_cons.mp member with rfl | later
      · omega
      · split at later
        · cases later
        · have range := ih later
          omega

theorem scanned_inside_iff (start : offset ≤ limit) :
    (∀ index ∈ scanned memory offset len, index < limit) ↔
      offset + len ≤ limit ∨ ∃ index, offset ≤ index ∧ index < limit ∧ memory index = 0xff := by
  induction len generalizing offset with
  | zero => simpa [scanned] using Or.inl start
  | succ len ih =>
      rw [scanned, List.forall_mem_cons]
      by_cases last : offset = limit
      · subst last
        constructor
        · intro inside
          exact absurd inside.1 (lt_irrefl _)
        · rintro (fits | ⟨index, first, bound, -⟩) <;> omega
      · by_cases marked : memory offset = 0xff
        · rw [if_pos marked]
          refine ⟨fun _ => .inr ⟨offset, le_rfl, by omega, marked⟩, fun _ => ⟨by omega, by simp⟩⟩
        · rw [if_neg marked, ih (by omega)]
          constructor
          · rintro ⟨-, fits | ⟨index, first, bound, found⟩⟩
            · exact .inl (by omega)
            · exact .inr ⟨index, by omega, bound, found⟩
          · rintro (fits | ⟨index, first, bound, found⟩)
            · exact ⟨by omega, .inl (by omega)⟩
            · refine ⟨by omega, .inr ⟨index, ?_, bound, found⟩⟩
              rcases Nat.eq_or_lt_of_le first with same | later
              · exact absurd (same ▸ found) marked
              · exact later

end Scanning

/-- Where the loop starts a record, with the bytes used before it. -/
structure Cursor where
  offset : Nat
  used : Nat

namespace Cursor

/-- The record is added and the loop goes on after the length it claims. -/
structure Next (memory : Memory) (cursor next : Cursor) : Prop where
  inside : cursor.offset < totalLen
  unmarked : memory cursor.offset ≠ 0xff
  fits : recordLen memory cursor.offset ≤ totalLen - cursor.used
  offset : next.offset = cursor.offset + nameSize + 2 + recordLen memory cursor.offset
  used : next.used =
    sysvarLen cursor.used (nameSize + 2 + (recordValue memory cursor.offset).strlen)

/-- The header of the record lies among the records, and its value, unless it
is too long for the free space, ends there or has an end mark there. -/
def Ends (memory : Memory) (cursor : Cursor) : Prop :=
  cursor.offset < totalLen → memory cursor.offset ≠ 0xff →
    cursor.offset + nameSize + 2 ≤ totalLen ∧
      (recordLen memory cursor.offset ≤ totalLen - cursor.used →
        cursor.offset + nameSize + 2 + recordLen memory cursor.offset ≤ totalLen ∨
          ∃ index, cursor.offset + nameSize + 2 ≤ index ∧ index < totalLen ∧ memory index = 0xff)

end Cursor

section Loop

variable {memory : Memory}

theorem length_copied (memory : Memory) (offset len : Nat) :
    (copied memory offset len).length ≤ len := by
  induction len generalizing offset with
  | zero => exact le_rfl
  | succ len ih =>
      rw [copied]
      split
      · exact Nat.zero_le _
      · exact Nat.succ_le_succ (ih _)

theorem strlen_ofBytes (bytes : List Byte) : (CString.ofBytes bytes).strlen ≤ bytes.length :=
  (List.takeWhile_sublist _).length_le

theorem strlen_name (memory : Memory) (offset : Nat) :
    (CString.ofBytes (copied memory offset nameSize)).strlen ≤ nameSize :=
  (strlen_ofBytes _).trans (length_copied memory offset nameSize)

/-- The three ways in which the loop meets an offset. -/
theorem loadReads_cases (memory : Memory) (i : Nat) (buf : SysvarBuf) :
    (totalLen ≤ i ∧ (SysvarBuf.loadReads memory i buf).1 = []) ∨
    (i < totalLen ∧ memory i = 0xff ∧ (SysvarBuf.loadReads memory i buf).1 = [i]) ∨
    (i < totalLen ∧ memory i ≠ 0xff ∧ ∃ header : List Nat,
      header = i :: (scanned memory i nameSize ++ [i + nameSize, i + nameSize + 1]) ∧
        ((buf.freeLen < recordLen memory i ∧ (SysvarBuf.loadReads memory i buf).1 = header) ∨
          ∃ added : SysvarBuf, recordLen memory i ≤ buf.freeLen ∧
            Cursor.Next memory ⟨i, buf.usedLen⟩
              ⟨i + nameSize + 2 + recordLen memory i, added.usedLen⟩ ∧
            (SysvarBuf.loadReads memory i buf).1 =
              header ++ scanned memory (i + nameSize + 2) (recordLen memory i) ++
                (SysvarBuf.loadReads memory (i + nameSize + 2 + recordLen memory i) added).1)) := by
  rw [SysvarBuf.loadReads]
  by_cases inside : i < totalLen
  · rw [if_pos inside]
    by_cases marked : memory i = 0xff
    · rw [if_pos marked]
      exact .inr (.inl ⟨inside, marked, rfl⟩)
    · rw [if_neg marked]
      refine .inr (.inr ⟨inside, marked, _, rfl, ?_⟩)
      dsimp only
      by_cases long : buf.freeLen < recordLen memory i
      · rw [if_pos long]
        exact .inl ⟨long, rfl⟩
      · obtain ⟨added, adding, -, used, -⟩ :=
          setVar_short buf (recordValue memory i) (strlen_name memory i)
        have fits : recordLen memory i ≤ buf.freeLen := Nat.le_of_not_lt long
        rw [if_neg long, adding]
        exact .inr ⟨added, fits, ⟨inside, marked, fits, rfl, used⟩, rfl⟩
  · rw [if_neg inside]
    exact .inl ⟨Nat.le_of_not_lt inside, rfl⟩

theorem header_inside_iff {i : Nat} (inside : i < totalLen) :
    (∀ index ∈ i :: (scanned memory i nameSize ++ [i + nameSize, i + nameSize + 1]),
      index < totalLen) ↔ i + nameSize + 2 ≤ totalLen := by
  constructor
  · intro within
    have last := within (i + nameSize + 1) (by simp)
    omega
  · intro room index member
    rcases List.mem_cons.mp member with rfl | later
    · exact inside
    · rcases List.mem_append.mp later with name | length
      · have range := scanned_range name
        omega
      · simp only [List.mem_cons, List.not_mem_nil, or_false] at length
        omega

theorem Cursor.Next.unique {cursor next other : Cursor} (first : cursor.Next memory next)
    (second : cursor.Next memory other) : next = other := by
  obtain ⟨offset, used⟩ := next
  obtain ⟨offset', used'⟩ := other
  obtain rfl : offset = offset' := first.offset.trans second.offset.symm
  obtain rfl : used = used' := first.used.trans second.used.symm
  rfl

/-- Every record from a cursor on ends well. -/
def Cursor.AllEnd (memory : Memory) (start : Cursor) : Prop :=
  ∀ cursor, Relation.ReflTransGen (Cursor.Next memory) start cursor → cursor.Ends memory

theorem allEnd_iff (start : Cursor) : start.AllEnd memory ↔
    start.Ends memory ∧ ∀ next, start.Next memory next → next.AllEnd memory := by
  constructor
  · intro every
    exact ⟨every start .refl, fun next step cursor path => every cursor (.head step path)⟩
  · rintro ⟨first, rest⟩ cursor path
    rcases Relation.ReflTransGen.cases_head path with rfl | ⟨next, step, later⟩
    · exact first
    · exact rest next step cursor later

/-- The loop reads only the bytes of the records when every record it reaches
ends among them. -/
theorem loadReads_inside_iff (memory : Memory) (i : Nat) (buf : SysvarBuf) :
    (∀ index ∈ (SysvarBuf.loadReads memory i buf).1, index < totalLen) ↔
      Cursor.AllEnd memory ⟨i, buf.usedLen⟩ := by
  induction remaining : totalLen - i using Nat.strong_induction_on generalizing i buf with
  | _ remaining ih =>
      rw [allEnd_iff]
      rcases loadReads_cases memory i buf with ⟨past, reads⟩ | ⟨inside, marked, reads⟩ |
        ⟨inside, unmarked, header, same, ⟨long, reads⟩ | ⟨added, fits, next, reads⟩⟩
      · rw [reads]
        refine ⟨fun _ => ⟨fun inside => ?_, fun next step => ?_⟩, fun _ => by simp⟩
        · exact absurd inside (Nat.not_lt_of_le past)
        · exact absurd step.inside (Nat.not_lt_of_le past)
      · rw [reads]
        refine ⟨fun _ => ⟨fun _ unmarked => ?_, fun next step => ?_⟩, fun _ => by simpa using inside⟩
        · exact absurd marked unmarked
        · exact absurd marked step.unmarked
      · rw [reads, same, header_inside_iff inside]
        constructor
        · intro room
          refine ⟨fun _ _ => ⟨room, fun fits => ?_⟩, fun next step => ?_⟩
          · exact absurd long (Nat.not_lt_of_le fits)
          · exact absurd long (Nat.not_lt_of_le step.fits)
        · exact fun ends => (ends.1 inside unmarked).1
      · have later := ih _ (by have moved : i < i + nameSize + 2 + recordLen memory i := by omega
                               omega) (i + nameSize + 2 + recordLen memory i) added rfl
        have others : (∀ after, Cursor.Next memory ⟨i, buf.usedLen⟩ after →
            after.AllEnd memory) ↔
            Cursor.AllEnd memory ⟨i + nameSize + 2 + recordLen memory i, added.usedLen⟩ :=
          ⟨fun every => every _ next, fun every after step => step.unique next ▸ every⟩
        rw [reads, same, List.forall_mem_append, List.forall_mem_append, header_inside_iff inside,
          later, others]
        constructor
        · rintro ⟨⟨room, value⟩, rest⟩
          exact ⟨fun _ _ => ⟨room, fun _ => (scanned_inside_iff room).mp value⟩, rest⟩
        · rintro ⟨ends, rest⟩
          obtain ⟨room, value⟩ := ends inside unmarked
          exact ⟨⟨room, (scanned_inside_iff room).mpr (value fits)⟩, rest⟩

end Loop

section Refinement

variable {data : Block} {beyond : Memory}

/-- A value computed from reads, which fault past the block. -/
def within {Value : Type} (reads : List Nat) (value : Value) : Except Fault Value :=
  if ∀ index ∈ reads, index < blockSize then .ok value else .error .overrun

theorem within_nil {Value : Type} (value : Value) : within [] value = .ok value :=
  if_pos (by simp)

theorem within_bind {Value Result : Type} {reads rest : List Nat} {value : Value} {result : Result}
    {next : Value → Except Fault Result} (inner : next value = within rest result) :
    (within reads value >>= next) = within (reads ++ rest) result := by
  by_cases first : ∀ index ∈ reads, index < blockSize
  · have same : within reads value = .ok value := if_pos first
    rw [same]
    change next value = _
    rw [inner]
    by_cases second : ∀ index ∈ rest, index < blockSize
    · have both := List.forall_mem_append.mpr ⟨first, second⟩
      rw [within, within, if_pos second, if_pos both]
    · have neither : ¬∀ index ∈ reads ++ rest, index < blockSize :=
        mt (fun both => (List.forall_mem_append.mp both).2) second
      rw [within, within, if_neg second, if_neg neither]
  · have same : within reads value = .error .overrun := if_neg first
    have neither : ¬∀ index ∈ reads ++ rest, index < blockSize :=
      mt (fun both => (List.forall_mem_append.mp both).1) first
    rw [same, within, if_neg neither]
    rfl

theorem memory_of_lt {index : Nat} (inside : index < blockSize) :
    data.bytes[index]? = some (data.memory beyond index) := by
  have bound : index < data.bytes.length := data.length_bytes.symm ▸ inside
  rw [Block.memory, List.getElem?_eq_getElem bound, Option.getD_some]

theorem fetch_eq (beyond : Memory) (index : Nat) :
    data.fetch index = within [index] (data.memory beyond index) := by
  by_cases inside : index < blockSize
  · rw [within, if_pos (by simpa using inside), Block.fetch, memory_of_lt inside]
  · have outside : data.bytes[index]? = none :=
      List.getElem?_eq_none (data.length_bytes.symm ▸ Nat.le_of_not_lt inside)
    rw [within, if_neg (by simpa using inside), Block.fetch, outside]

/-- A copy stays inside the block when it fills its length or ends before the
block does, and then it is the copy from memory. -/
theorem copied_eq (beyond : Memory) (offset len : Nat) {text : List Byte}
    (whole : text = ((data.bytes.drop offset).take len).takeWhile (· ≠ 0xff)) :
    ((text.length = len ∨ offset + text.length < blockSize) ↔
      ∀ index ∈ scanned (data.memory beyond) offset len, index < blockSize) ∧
        ((∀ index ∈ scanned (data.memory beyond) offset len, index < blockSize) →
          copied (data.memory beyond) offset len = text) := by
  induction len generalizing offset text with
  | zero => simp [scanned, copied, whole]
  | succ len ih =>
      rw [scanned, copied, List.forall_mem_cons]
      by_cases inside : offset < blockSize
      · have bound : offset < data.bytes.length := data.length_bytes.symm ▸ inside
        have head : data.bytes[offset] = data.memory beyond offset :=
          Option.some.inj ((List.getElem?_eq_getElem bound).symm.trans (memory_of_lt inside))
        rw [List.drop_eq_getElem_cons bound, List.take_succ_cons, head] at whole
        by_cases marked : data.memory beyond offset = 0xff
        · simp [marked, inside, whole]
        · obtain ⟨same, rest⟩ := ih (offset + 1) rfl
          rw [List.takeWhile_cons_of_pos (by simpa using marked)] at whole
          rw [if_neg marked, if_neg marked, whole, List.length_cons]
          refine ⟨?_, fun within => by rw [rest within.2]⟩
          rw [← same, Nat.add_right_cancel_iff, ← Nat.add_assoc, Nat.add_right_comm]
          exact ⟨fun either => ⟨inside, either⟩, fun both => both.2⟩
      · have gone : data.bytes.drop offset = [] :=
          List.drop_eq_nil_of_le (data.length_bytes.symm ▸ Nat.le_of_not_lt inside)
        rw [gone] at whole
        simp [inside, whole]

theorem copyToStr_eq (beyond : Memory) (offset len : Nat) : data.copyToStr offset len =
    within (scanned (data.memory beyond) offset len)
      (.ofBytes (copied (data.memory beyond) offset len)) := by
  obtain ⟨same, rest⟩ := @copied_eq data beyond offset len _ rfl
  rw [Block.copyToStr, within]
  split
  case isTrue inside =>
    rw [if_pos (same.mp inside), rest (same.mp inside)]
  case isFalse outside =>
    rw [if_neg (mt same.mpr outside)]

theorem header_bind {Result : Type} {i : Nat} {rest : List Nat} {result : Result}
    {next : CString → Byte → Byte → Except Fault Result}
    (inner : next (.ofBytes (copied (data.memory beyond) i nameSize))
      (data.memory beyond (i + nameSize)) (data.memory beyond (i + nameSize + 1)) =
        within rest result) :
    (data.copyToStr i nameSize >>= fun name => data.fetch (i + nameSize) >>= fun high =>
      data.fetch (i + nameSize + 1) >>= fun low => next name high low) =
        within (scanned (data.memory beyond) i nameSize ++
          [i + nameSize, i + nameSize + 1] ++ rest) result := by
  rw [copyToStr_eq beyond, fetch_eq beyond, fetch_eq beyond, List.append_assoc]
  exact within_bind (@within_bind _ _ [i + nameSize] _ _ _ _ (within_bind inner))

/-- The loop that faults past the block is the loop over memory, as far as its
reads stay inside the block. -/
theorem loadLoop_eq (data : Block) (beyond : Memory) (i : Nat) (buf : SysvarBuf) :
    SysvarBuf.loadLoop data i buf =
      within (SysvarBuf.loadReads (data.memory beyond) i buf).1
        (SysvarBuf.loadReads (data.memory beyond) i buf).2 := by
  induction remaining : totalLen - i using Nat.strong_induction_on generalizing i buf with
  | _ remaining ih =>
      rw [SysvarBuf.loadLoop, SysvarBuf.loadReads]
      by_cases inside : i < totalLen
      · rw [if_pos inside, if_pos inside, fetch_eq beyond]
        by_cases marked : data.memory beyond i = 0xff
        · rw [if_pos marked]
          have ended : within [] (buf, ErrorCode.success) = .ok (buf, .success) := within_nil _
          exact within_bind ((if_pos marked).trans ended.symm)
        · rw [if_neg marked]
          dsimp only
          set memory := data.memory beyond with beyond_def
          by_cases long : buf.freeLen < recordLen memory i
          · have reads : i :: (scanned memory i nameSize ++ [i + nameSize, i + nameSize + 1]) =
                [i] ++ (scanned memory i nameSize ++ [i + nameSize, i + nameSize + 1] ++ []) := by simp
            rw [if_pos long, reads]
            refine within_bind ((if_neg marked).trans (header_bind ?_))
            rw [within_nil]
            exact if_pos long
          · obtain ⟨added, adding, -⟩ := setVar_short buf (recordValue memory i)
              (strlen_name memory i)
            have later := ih _ (by omega) (i + nameSize + 2 + recordLen memory i) added rfl
            have reads (value rest : List Nat) :
                i :: (scanned memory i nameSize ++ [i + nameSize, i + nameSize + 1]) ++ value ++ rest =
                  [i] ++ (scanned memory i nameSize ++ [i + nameSize, i + nameSize + 1] ++
                    (value ++ rest)) := by simp
            rw [if_neg long, adding]
            dsimp only
            rw [reads]
            refine within_bind ((if_neg marked).trans (header_bind ((if_neg long).trans ?_)))
            rw [copyToStr_eq beyond]
            refine within_bind ?_
            change (match buf.setVar _ (recordValue memory i) with
              | (buf, .success) => _
              | stopped => _) = _
            rw [adding]
            exact later
      · rw [if_neg inside, if_neg inside, within_nil]

end Refinement

theorem loadVarReads_eq (buf : SysvarBuf) (beyond : Memory) : ∃ cleared : SysvarBuf,
    buf.clearVar = (cleared, .success) ∧ cleared.data = buf.data ∧ cleared.usedLen = 0 ∧
      buf.loadVarReads beyond = SysvarBuf.loadReads (buf.data.memory beyond) 0 cleared := by
  obtain ⟨cleared, clearing, empty, data, -⟩ := clearLoop_success buf.list buf rfl
  refine ⟨cleared, clearing, data, usedLen_of_empty empty, ?_⟩
  rw [SysvarBuf.loadVarReads, SysvarBuf.clearVar, clearing, ← data]

/-- `loadVar` gives what `load_var` gives over memory unless a read leaves the block. -/
theorem loadVar_eq (buf : SysvarBuf) (beyond : Memory) :
    buf.loadVar = within (buf.loadVarReads beyond).1 (buf.loadVarReads beyond).2 := by
  obtain ⟨cleared, clearing, data, -, same⟩ := loadVarReads_eq buf beyond
  rw [same, SysvarBuf.loadVar, clearing, ← data]
  exact loadLoop_eq cleared.data beyond 0 cleared

/-- `load_var` reads only the first `total_len` bytes exactly when every record
on the chain of claimed lengths ends there. -/
theorem loadVar_reads_inside_iff (buf : SysvarBuf) (beyond : Memory) :
    (∀ index ∈ (buf.loadVarReads beyond).1, index < totalLen) ↔
      Cursor.AllEnd (buf.data.memory beyond) ⟨0, 0⟩ := by
  obtain ⟨cleared, -, -, unused, same⟩ := loadVarReads_eq buf beyond
  have inside := loadReads_inside_iff (buf.data.memory beyond) 0 cleared
  rwa [unused, ← same] at inside

section LongRecord

/-- A name, two length bytes and a value. -/
def plainRecord (name value : Nat) : List Byte :=
  List.replicate name 0x61 ++ ([0xff, 0xf8] ++ List.replicate value 0x61)

theorem length_plainRecord (name value : Nat) :
    (plainRecord name value).length = name + 2 + value := by
  simp only [plainRecord, List.length_append, List.length_replicate, List.length_cons,
    List.length_nil]
  omega

/-- One record that claims all of the space for its value. -/
def longBytes : List Byte :=
  plainRecord nameSize (blockSize - (nameSize + 2))

theorem length_longBytes : longBytes.length = blockSize := by
  have room : nameSize + 2 ≤ blockSize := by decide
  rw [longBytes, length_plainRecord, Nat.add_sub_cancel' room]

/-- The block has its checksum, so that `data_load` accepts it. -/
def longRecord : Block :=
  Block.setCrc32 ⟨longBytes, length_longBytes⟩

theorem memory_longRecord (beyond : Memory) {index : Nat} {byte : Byte} (inside : index < totalLen)
    (held : longBytes[index]? = some byte) : longRecord.memory beyond index = byte := by
  have same : longRecord.body = longBytes.take totalLen := Block.body_setCrc32 _
  have read : longRecord.bytes[index]? = longBytes[index]? := by
    have body := congrArg (·[index]?) same
    simpa only [Block.body, List.getElem?_take_of_lt inside] using body
  rw [Block.memory, read, held, Option.getD_some]

theorem longBytes_value {index : Nat} (first : nameSize + 2 ≤ index) (last : index < blockSize) :
    longBytes[index]? = some 0x61 := by
  rw [longBytes, plainRecord, List.getElem?_append_right (by simp; omega),
    List.getElem?_append_right (by simp; omega)]
  exact List.getElem?_replicate_of_lt (by simp; omega)

theorem reads_past_records : longRecord.Passes ∧ ∀ beyond : Memory,
    ¬∀ index ∈ ((SysvarBuf.init longRecord).loadVarReads beyond).1, index < totalLen := by
  refine ⟨Block.passes_setCrc32 _, fun beyond inside => ?_⟩
  obtain ⟨cleared, -, -, unused, same⟩ := loadVarReads_eq (.init longRecord) beyond
  rw [same, loadReads_inside_iff, unused] at inside
  have mark := memory_longRecord beyond (show 0 < totalLen by decide) (rfl : longBytes[0]? = some 0x61)
  have high := memory_longRecord beyond (show nameSize < totalLen by decide)
    (rfl : longBytes[nameSize]? = some 0xff)
  have low := memory_longRecord beyond (show nameSize + 1 < totalLen by decide)
    (rfl : longBytes[nameSize + 1]? = some 0xf8)
  have len : recordLen (longRecord.memory beyond) 0 = totalLen := by
    rw [recordLen, Nat.zero_add, high, low]
    decide
  obtain ⟨-, ends⟩ := inside ⟨0, 0⟩ .refl (show 0 < totalLen by decide) (by
    rw [show (⟨0, 0⟩ : Cursor).offset = 0 from rfl]
    exact ne_of_eq_of_ne mark (by decide))
  rcases ends (len ▸ le_rfl) with fits | ⟨index, first, bound, marked⟩
  · change 0 + nameSize + 2 + recordLen (longRecord.memory beyond) 0 ≤ totalLen at fits
    rw [len] at fits
    omega
  · have value := memory_longRecord beyond bound (longBytes_value (by omega) (bound.trans (by decide)))
    exact absurd (value.symm.trans marked) (by decide)

end LongRecord

end Gfiber.Sysvar
