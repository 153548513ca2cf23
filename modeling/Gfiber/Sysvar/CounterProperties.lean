import Mathlib.Data.List.Chain
import Gfiber.Lib.Run
import Gfiber.Sysvar.SaveProperties

/-! The write counters of the images that a run of calls leaves on the flash.
`save_var` builds its block on erased bytes, so that each save starts the
counter again. -/

set_option autoImplicit false

namespace Gfiber.Sysvar

open Lib

section Placing

/-- The bytes that the loop of `save_var` lays down from an offset on: a record
is begun only before `total_len`, but it may end after it. -/
def placed : Nat → List SysvarList → List Byte
  | _, [] => []
  | offset, var :: rest =>
      if offset < totalLen then var.record ++ placed (offset + var.len) rest else []

/-- The counter in the block that `save_var` leaves. -/
def counterLeft (vars : List SysvarList) : Word :=
  let byte (index : Nat) : Byte := ((placed 0 vars)[totalLen + index]?).getD 0xff
  ofLittleEndian (byte 0) (byte 1) (byte 2) (byte 3)

theorem length_placed_le (offset : Nat) (vars : List SysvarList) :
    (placed offset vars).length ≤ recordsLen vars := by
  induction vars generalizing offset with
  | nil => exact Nat.zero_le _
  | cons var rest ih =>
      rw [placed, recordsLen_cons]
      split
      · rw [List.length_append, length_record]
        exact Nat.add_le_add_left (ih _) _
      · exact Nat.zero_le _

theorem counterLeft_of_fits {vars : List SysvarList} (fits : recordsLen vars ≤ totalLen) :
    counterLeft vars = 0xffffffff := by
  have past (index : Nat) : (placed 0 vars)[totalLen + index]? = none := by
    have length := length_placed_le 0 vars
    exact List.getElem?_eq_none (by omega)
  simp only [counterLeft, past, Option.getD_none]
  decide

theorem store_eq_ok {data stored : Block} {offset : Nat} {stretch : List Byte}
    (result : data.store offset stretch = .ok stored) : offset + stretch.length ≤ blockSize := by
  rw [Block.store] at result
  split at result
  case isTrue fits => exact fits
  case isFalse => cases result

theorem saveLoop_placed {usedLen offset : Nat} {vars : List SysvarList} {data image : Block}
    (inside : offset ≤ blockSize)
    (erased : data.bytes.drop offset = List.replicate (blockSize - offset) 0xff)
    (loop : SysvarBuf.saveLoop usedLen vars offset data = .ok (image, .success)) :
    ∃ (records : Block) (left : Nat), image = records.setCrc32 ∧
      records.bytes = data.bytes.take offset ++ placed offset vars ++ List.replicate left 0xff := by
  have whole : data.bytes = data.bytes.take offset ++ List.replicate (blockSize - offset) 0xff := by
    rw [← erased, List.take_append_drop]
  induction vars generalizing offset data with
  | nil =>
      cases loop
      exact ⟨data, blockSize - offset, rfl, by rw [placed, List.append_nil, ← whole]⟩
  | cons var rest ih =>
      rw [SysvarBuf.saveLoop] at loop
      split at loop
      case isFalse past =>
        cases loop
        exact ⟨data, blockSize - offset, rfl, by
          rw [placed, if_neg past, List.append_nil, ← whole]⟩
      case isTrue start =>
        obtain ⟨named, storedName, loop⟩ := bind_eq_ok loop
        dsimp only at loop
        split at loop
        case isTrue => cases loop
        case isFalse =>
          obtain ⟨counted, storedLength, loop⟩ := bind_eq_ok loop
          obtain ⟨valued, storedValue, loop⟩ := bind_eq_ok loop
          have room := store_eq_ok storedValue
          rw [length_copyToBuf le_rfl] at room
          have parts : offset + nameSize + 2 + var.value.strlen = offset + var.len := by
            rw [SysvarList.len]
            omega
          obtain ⟨named', counted', valued', name, length, value, taken, dropped⟩ :=
            store_record data offset var (by omega)
          obtain rfl := Except.ok.inj (storedName.symm.trans name)
          obtain rfl := Except.ok.inj (storedLength.symm.trans length)
          obtain rfl := Except.ok.inj (storedValue.symm.trans value)
          have cleared : valued.bytes.drop (offset + var.len) =
              List.replicate (blockSize - (offset + var.len)) 0xff := by
            rw [dropped, ← List.drop_drop, erased, List.drop_replicate]
            congr 1
            omega
          rw [parts] at loop room
          obtain ⟨records, left, same, bytes⟩ := ih room cleared loop (by
            rw [← cleared, List.take_append_drop])
          refine ⟨records, left, same, ?_⟩
          rw [bytes, taken, placed, if_pos start]
          simp only [List.append_assoc]

@[simp] theorem getWc32_setCrc32 (block : Block) : block.setCrc32.getWc32 = block.getWc32 := by
  have size := length_littleEndian (sysvarCrc block.body)
  simp only [Block.getWc32, Block.wordAt, Block.setCrc32, Block.getD_put, wc32Size]
  rw [if_neg (by omega), if_neg (by omega), if_neg (by omega), if_neg (by omega)]

@[simp] theorem getWc32_setWc32 (block : Block) : block.setWc32.getWc32 = block.getWc32 + 1 :=
  Block.wordAt_put_littleEndian block _

theorem getWc32_saveVar {buf saved : SysvarBuf} (saving : buf.saveVar = .ok (saved, .success)) :
    saved.data.getWc32 = counterLeft buf.list := by
  obtain ⟨⟨image, ended⟩, loop, rest⟩ := bind_eq_ok saving
  simp only [pure, Except.pure, Except.ok.injEq, Prod.mk.injEq] at rest
  obtain ⟨rfl, rfl⟩ := rest
  obtain ⟨records, left, rfl, bytes⟩ :=
    saveLoop_placed (Nat.zero_le blockSize) (rfl : Block.erased.bytes.drop 0 = _) loop
  rw [List.take_zero, List.nil_append] at bytes
  have byte (index : Nat) (inside : index < 4) : records.bytes.getD (totalLen + index) 0 =
      ((placed 0 buf.list)[totalLen + index]?).getD 0xff := by
    have bound : totalLen + index < records.bytes.length := by
      have size : totalLen + 4 ≤ blockSize := by decide
      rw [records.length_bytes]
      omega
    rw [List.getD_eq_getElem?_getD, bytes]
    rw [bytes, List.length_append, List.length_replicate] at bound
    by_cases laid : totalLen + index < (placed 0 buf.list).length
    · rw [List.getElem?_append_left laid, List.getElem?_eq_getElem laid]
      rfl
    · have past := Nat.le_of_not_lt laid
      rw [List.getElem?_append_right past, List.getElem?_eq_none past,
        List.getElem?_replicate_of_lt (by omega)]
      rfl
  rw [getWc32_setCrc32, Block.getWc32, Block.wordAt, counterLeft]
  have first := byte 0 (by decide)
  rw [Nat.add_zero] at first
  rw [first, byte 1 (by decide), byte 2 (by decide), byte 3 (by decide)]
  rfl

end Placing

/-- The counters of the images written, in the order of the writes. -/
def Medium.counters (medium : Medium) : List Word :=
  (medium.log.filter (·.operation = .write)).map fun access => (access.after access.side).getWc32

def FlashIo.Calm (io : FlashIo) : Prop :=
  ∀ side, io.Repairs side

def LoadIo.Calm (io : LoadIo) : Prop :=
  io.ReadsFull ∧ io.toFlashIo.Calm

def BothPass (flash : Partitions) : Prop :=
  ∀ side, (flash side).Passes

namespace Medium

/-- The partitions that pass the check, the one with the newer counter last. -/
def found (medium : Medium) : List Side :=
  let newer : Side :=
    if (medium.flash .zero).getWc32 = (medium.flash .one).getWc32 + 1 then .zero else .one
  [newer.other, newer].filter fun side => (medium.flash side).Passes

/-- The log of a flash holds the images that are on it at the start, since they
have been written before. -/
def begun (medium : Medium) : Medium :=
  { medium with log := medium.found.map fun side => ⟨.write, side, medium.flash, medium.flash⟩ }

theorem counters_begun (medium : Medium) :
    medium.begun.counters = medium.found.map fun side => (medium.flash side).getWc32 := by
  have every : medium.begun.log.filter (·.operation = .write) = medium.begun.log :=
    List.filter_eq_self.mpr fun access member => by
      obtain ⟨side, -, rfl⟩ := List.mem_map.mp member
      rfl
  rw [counters, every, begun, List.map_map]
  rfl

theorem found_of_single {medium : Medium} {side : Side} (passes : (medium.flash side).Passes)
    (unclean : ¬BothPass medium.flash) : medium.found = [side] := by
  have fails : ¬(medium.flash side.other).Passes := fun other => unclean fun asked => by
    rcases asked.eq_or_eq_other side with rfl | rfl
    · exact passes
    · exact other
  rw [found]
  split <;> cases side <;> simp_all [Side.other]

end Medium

section Effects

variable {io : FlashIo} {side : Side} {data : Block} {medium : Medium}

theorem counters_perform_erase (medium : Medium) (side : Side) (block : Block) :
    (medium.perform .erase side block).counters = medium.counters := by
  rw [Medium.counters, Medium.perform, List.filter_append, List.filter_cons_of_neg (by simp),
    List.filter_nil, List.append_nil]
  rfl

theorem counters_perform_write (medium : Medium) (side : Side) (block : Block) :
    (medium.perform .write side block).counters = medium.counters ++ [block.getWc32] := by
  rw [Medium.counters, Medium.perform, List.filter_append, List.filter_cons_of_pos (by simp),
    List.filter_nil, List.map_append, List.map_cons, List.map_nil]
  dsimp only
  rw [Function.update_self]
  rfl

theorem counters_rewrite (repairs : io.Repairs side) :
    (rewrite io side data medium).1.counters = medium.counters ++ [data.getWc32 + 1] := by
  rw [rewrite_done data medium repairs, counters_perform_write, counters_perform_erase,
    getWc32_setWc32]

theorem passes_rewrite_both (repairs : io.Repairs side) (passes : data.Passes)
    (other : (medium.flash side.other).Passes) :
    BothPass (rewrite io side data medium).1.flash := by
  intro asked
  rcases asked.eq_or_eq_other side with rfl | rfl
  · exact passes_rewrite repairs passes
  · rw [flash_rewrite_other]
    exact other

/-- A save writes the two partitions one after the other. -/
theorem saveSides_calm (calm : io.Calm) (passes : data.Passes) :
    (saveSides io [side, side.other] data medium).1.counters =
        medium.counters ++ [data.getWc32 + 1, data.getWc32 + 1 + 1] ∧
      BothPass (saveSides io [side, side.other] data medium).1.flash := by
  rw [saveSides_repaired (calm side), medium_saveSides_last]
  constructor
  · rw [counters_rewrite (calm side.other), counters_rewrite (calm side), getWc32_setWc32,
      List.append_assoc]
    rfl
  · refine passes_rewrite_both (calm side.other) ((Block.passes_setWc32 data).mpr passes) ?_
    rw [Side.other_other]
    exact passes_rewrite (calm side) passes

/-- A load writes nothing, or one image next to the only one that passes. -/
def LoadWrites (medium after : Medium) : Prop :=
  after = medium ∨ ¬BothPass medium.flash ∧ BothPass after.flash ∧
    ∃ side, (medium.flash side).Passes ∧
      after.counters = medium.counters ++ [(medium.flash side).getWc32 + 1]

theorem dataLoad_calm {io : LoadIo} (devices : Devices) (buf : SysvarBuf) (calm : io.Calm) :
    LoadWrites medium (dataLoad devices io buf medium).2.1 := by
  obtain ⟨reads, repairs⟩ := calm
  by_cases opened : checkMtd devices = .success
  · by_cases clean : io.Clean medium.flash
    · rw [dataLoad_clean buf medium opened clean]
      exact .inl rfl
    · by_cases some : AnyPasses medium.flash
      · obtain ⟨read, result⟩ := dataLoad_unclean buf medium opened clean
        have unclean : ¬BothPass medium.flash := fun both =>
          clean ⟨⟨(reads .zero).1, both .zero⟩, ⟨(reads .one).1, both .one⟩⟩
        rw [result, dataRecovery]
        refine .inr ⟨unclean, ?_⟩
        by_cases zero : (medium.flash .zero).Passes
        · rw [medium_recoveryLoop_passing ⟨(reads .zero).2, zero⟩]
          exact ⟨passes_rewrite_both (repairs _) zero zero, .zero, zero,
            counters_rewrite (repairs _)⟩
        · have one : (medium.flash .one).Passes := by
            obtain ⟨side, passes⟩ := some
            cases side with
            | zero => exact absurd passes zero
            | one => exact passes
          rw [recoveryLoop_failing fun passes => zero passes.2,
            medium_recoveryLoop_passing ⟨(reads .one).2, one⟩]
          exact ⟨passes_rewrite_both (repairs _) one one, .one, one, counters_rewrite (repairs _)⟩
      · exact .inl (dataLoad_untouched devices io buf some)
  · rw [dataLoad, if_neg opened]
    exact .inl rfl

theorem loadBuf_calm {io : LoadIo} {devices : Devices} {buf loaded : SysvarBuf} {after : Medium}
    {status : Status} (calm : io.Calm)
    (result : loadBuf devices io buf medium = .ok (loaded, after, status)) :
    LoadWrites medium after := by
  have effect := @dataLoad_calm medium io devices buf calm
  rcases loadBuf_cases result with ⟨_, _, loading, _⟩ | ⟨_, loading, _⟩ | ⟨loading, _⟩
  all_goals
    rw [loading] at effect
    exact effect

end Effects

/-- Each counter is greater than each earlier one by the number of images since. -/
def CountsUp (counters : List Word) : Prop :=
  ∀ i j first second, i ≤ j → counters[i]? = some first → counters[j]? = some second →
    second = first + BitVec.ofNat 32 (j - i)

section Chains

abbrev Successive (first second : Word) : Prop := second = first + 1

theorem countsUp_iff_chain {counters : List Word} :
    CountsUp counters ↔ List.IsChain Successive counters := by
  rw [List.isChain_iff_getElem]
  constructor
  · intro up i inside
    have next := up i (i + 1) _ _ (Nat.le_add_right i 1)
      (List.getElem?_eq_getElem (by omega)) (List.getElem?_eq_getElem inside)
    rwa [Nat.add_sub_cancel_left] at next
  · intro chain i j first second order found later
    obtain ⟨distance, rfl⟩ := Nat.exists_eq_add_of_le order
    rw [Nat.add_sub_cancel_left]
    induction distance generalizing second with
    | zero =>
        rw [Nat.add_zero, found] at later
        cases later
        exact (BitVec.add_zero first).symm
    | succ distance ih =>
        obtain ⟨bound, value⟩ := List.getElem?_eq_some_iff.mp later
        have inside : i + distance + 1 < counters.length := bound
        have before := ih _ (Nat.le_add_right i distance)
          (List.getElem?_eq_getElem (Nat.lt_of_succ_lt inside))
        have step := chain (i + distance) inside
        rw [before] at step
        rw [← value]
        refine step.trans ?_
        rw [BitVec.ofNat_add, ← BitVec.add_assoc]
        rfl

theorem chain_append_two {counters : List Word} {base : Word} :
    List.IsChain Successive (counters ++ [base + 1, base + 1 + 1]) ↔
      List.IsChain Successive counters ∧
        (counters = [] ∨ counters.getLast? = some base) := by
  rw [List.isChain_append]
  refine and_congr_right fun _ => ?_
  have pair : List.IsChain Successive [base + 1, base + 1 + 1] := by simp
  rw [and_iff_right pair]
  cases last : counters.getLast? with
  | none =>
      rw [List.getLast?_eq_none_iff] at last
      simp [last]
  | some final =>
      have some : counters ≠ [] := fun empty => by
        rw [empty] at last
        cases last
      have same : base + 1 = final + 1 ↔ final = base := by
        rw [BitVec.add_left_inj, eq_comm]
      simpa [some, Successive] using same

end Chains

/-- A store whose flash holds what earlier runs have written. -/
def Store.begun (store : Store) : Store :=
  { store with rwFlash := store.rwFlash.begun, roFlash := store.roFlash.begun }

inductive CounterEvent where
  | load (rwIo roIo : LoadIo)
  | set (name value : Option CString)
  | save (io : FlashIo)

/-- The calls of the library, with no failure of the flash. -/
inductive CounterStep : Store → CounterEvent → Store → Prop where
  | load {store next : Store} {rwIo roIo : LoadIo} {status : Status} (rwCalm : rwIo.Calm)
      (roCalm : roIo.Calm) (result : store.loadvar rwIo roIo = .ok (next, status)) :
      CounterStep store (.load rwIo roIo) next
  | set {store : Store} {name value : Option CString} :
      CounterStep store (.set name value) (store.setvar name value).1
  | save {store next : Store} {io : FlashIo} {status : Status} (calm : io.Calm)
      (result : store.savevar io = .ok (next, status)) : CounterStep store (.save io) next

/-- The images written to the partitions of a buffer, those found at the start
among them, count the writes. -/
structure Store.Counts (store : Store) : Prop where
  rw : CountsUp store.rwFlash.counters
  ro : CountsUp store.roFlash.counters

/-- A save that comes to the flash finds no earlier image, or the last one has
the counter that `save_var` leaves in its block. -/
def SaveContinues (store : Store) : CounterEvent → Prop
  | .save _ => store.reachesFlash = true → store.rwFlash.counters = [] ∨
      store.rwFlash.counters.getLast? = some (counterLeft store.rwBuf.list)
  | _ => True

/-- Both partitions pass, or nothing has been written since the start. -/
def Medium.Settled (medium : Medium) : Prop :=
  BothPass medium.flash ∨
    medium.counters = medium.found.map fun side => (medium.flash side).getWc32

structure Store.Counting (store : Store) : Prop where
  chained : List.IsChain Successive store.rwFlash.counters
  settled : store.rwFlash.Settled
  roChained : List.IsChain Successive store.roFlash.counters
  roSettled : store.roFlash.Settled

section Steps

variable {store next : Store} {event : CounterEvent} {medium after : Medium}

theorem LoadWrites.keeps (writes : LoadWrites medium after) (settled : medium.Settled)
    (chained : List.IsChain Successive medium.counters) :
    List.IsChain Successive after.counters ∧ after.Settled := by
  rcases writes with same | ⟨unclean, both, side, passes, written⟩
  · rw [same]
    exact ⟨chained, settled⟩
  · have single := settled.resolve_left unclean
    rw [Medium.found_of_single passes unclean] at single
    rw [written, single]
    exact ⟨List.isChain_pair.mpr rfl, .inl both⟩

theorem loadvar_writes {rwIo roIo : LoadIo} {status : Status} (rwCalm : rwIo.Calm)
    (roCalm : roIo.Calm) (result : store.loadvar rwIo roIo = .ok (next, status)) :
    LoadWrites store.rwFlash next.rwFlash ∧ LoadWrites store.roFlash next.roFlash := by
  obtain ⟨⟨rwBuf, rwFlash, half⟩, loading, rest⟩ := bind_eq_ok result
  have first := loadBuf_calm rwCalm loading
  dsimp only at rest
  split at rest
  case h_1 =>
    cases rest
    exact ⟨first, .inl rfl⟩
  case h_2 =>
    obtain ⟨⟨roBuf, roFlash, ended⟩, second, rest⟩ := bind_eq_ok rest
    cases rest
    exact ⟨first, loadBuf_calm roCalm second⟩
  case h_3 =>
    cases rest
    exact ⟨first, .inl rfl⟩

theorem savevar_writes {io : FlashIo} {status : Status} (calm : io.Calm)
    (result : store.savevar io = .ok (next, status)) : next.roFlash = store.roFlash ∧
      (store.reachesFlash = false ∧ next.rwFlash = store.rwFlash ∨
        store.reachesFlash = true ∧ BothPass next.rwFlash.flash ∧
          next.rwFlash.counters = store.rwFlash.counters ++
            [counterLeft store.rwBuf.list + 1, counterLeft store.rwBuf.list + 1 + 1]) := by
  constructor
  · rcases Store.savevar_cases result with ⟨_, _, _, _, rfl, _⟩ | ⟨_, _, _, _, _, rfl⟩
    · rfl
    · rfl
  · obtain ⟨-, unreached | ⟨reaches, saved, saving, flash⟩⟩ := savevar_effect result
    · exact .inl unreached
    · obtain ⟨counters, both⟩ := @saveSides_calm io store.first saved.data store.rwFlash
        calm ((saveVar_result saving).2 rfl)
      rw [getWc32_saveVar saving] at counters
      exact .inr ⟨reaches, flash ▸ both, flash ▸ counters⟩

theorem Store.Counting.counts (counting : store.Counting) : store.Counts :=
  ⟨countsUp_iff_chain.mpr counting.chained, countsUp_iff_chain.mpr counting.roChained⟩

theorem counting_begun (counts : store.begun.Counts) : store.begun.Counting where
  chained := countsUp_iff_chain.mp counts.rw
  settled := .inr (Medium.counters_begun _)
  roChained := countsUp_iff_chain.mp counts.ro
  roSettled := .inr (Medium.counters_begun _)

theorem Store.Counting.step (counting : store.Counting) (continues : SaveContinues store event)
    (step : CounterStep store event next) : next.Counting := by
  obtain ⟨chained, settled, roChained, roSettled⟩ := counting
  cases step with
  | load rwCalm roCalm result =>
      obtain ⟨rwWrites, roWrites⟩ := loadvar_writes rwCalm roCalm result
      obtain ⟨rwChained, rwSettled⟩ := rwWrites.keeps settled chained
      obtain ⟨ro, roStill⟩ := roWrites.keeps roSettled roChained
      exact ⟨rwChained, rwSettled, ro, roStill⟩
  | @set name value =>
      obtain ⟨rwBuf, same, -⟩ := store.setvar_frame name value
      rw [same]
      exact ⟨chained, settled, roChained, roSettled⟩
  | save calm result =>
      obtain ⟨ro, ⟨-, same⟩ | ⟨reaches, both, counters⟩⟩ := savevar_writes calm result
      · exact ⟨same ▸ chained, same ▸ settled, ro ▸ roChained, ro ▸ roSettled⟩
      · refine ⟨?_, .inl both, ro ▸ roChained, ro ▸ roSettled⟩
        rw [counters, chain_append_two]
        exact ⟨chained, continues reaches⟩

theorem Store.Counting.necessary (step : CounterStep store event next) (counts : next.Counts) :
    SaveContinues store event := by
  cases step with
  | load => trivial
  | set => trivial
  | save calm result =>
      intro reaches
      obtain ⟨-, ⟨unreached, -⟩ | ⟨-, -, counters⟩⟩ := savevar_writes calm result
      · rw [reaches] at unreached
        cases unreached
      · have chained := countsUp_iff_chain.mp counts.rw
        rw [counters, chain_append_two] at chained
        exact chained.2

end Steps

/-- In every run without failures of the flash the counters of the images count
the writes exactly when those found at the start do, and each save that comes to
the flash finds no image or one with the counter that `save_var` leaves. -/
theorem counts_writes_iff {store finish : Store} {trace : List (Store × CounterEvent)}
    (run : Run CounterStep store.begun trace finish) :
    Throughout Store.Counts trace finish ↔
      store.begun.Counts ∧ StepsMeet SaveContinues trace := by
  have met (counts : store.begun.Counts) :
      Throughout Store.Counts trace finish ↔ StepsMeet SaveContinues trace := by
    refine run.throughout_iff_met (counting_begun counts) (fun {state} counting => ?_) ?_ ?_
    · exact Store.Counting.counts counting
    · exact Store.Counting.step
    · exact fun _ step counts => Store.Counting.necessary step counts
  constructor
  · intro throughout
    have first := run.throughout_start throughout
    exact ⟨first, (met first).mp throughout⟩
  · rintro ⟨counts, continues⟩
    exact (met counts).mpr continues

section Saves

structure Emptied (store : Store) : Prop where
  opened : checkMtd store.devices = .success
  empty : store.rwBuf.list = []

theorem calm_calmIo : calmIo.Calm := fun _ => ⟨rfl, rfl⟩

/-- A save of no variables writes the counters 0 and 1. -/
theorem save_empty {store : Store} (emptied : Emptied store) : store.reachesFlash = true ∧
    ∃ next : Store, CounterStep store (.save calmIo) next ∧ Emptied next ∧
      next.rwFlash.counters = store.rwFlash.counters ++ [0, 1] := by
  obtain ⟨opened, empty⟩ := emptied
  have storable : Storable store.rwBuf.list := empty ▸ storable_nil
  obtain ⟨saved, code, saving, succeeds, -⟩ := saveVar_storable storable
  obtain rfl := succeeds (by simp [empty])
  have listed : saved.list = [] := by rw [(saveVar_result saving).1, empty]
  have result := Store.savevar_of_saveVar calmIo saving
  obtain ⟨-, ⟨unreached, -⟩ | ⟨reaches, -, counters⟩⟩ := savevar_writes calm_calmIo result
  · simp [Store.reachesFlash, saving, opened] at unreached
  · rw [counterLeft_of_fits (by simp [empty])] at counters
    exact ⟨reaches, _, .save calm_calmIo result, ⟨opened, listed⟩, counters⟩

/-- A device whose flash has never been written. -/
def erasedMedium : Medium :=
  ⟨fun _ => .erased, []⟩

def erasedStore : Store :=
  .opened erasedMedium erasedMedium .erased .erased

theorem emptied_erasedStore : Emptied erasedStore.begun := ⟨by decide, rfl⟩

theorem found_erased : erasedMedium.found = [] :=
  List.filter_eq_nil_iff.mpr fun _ _ passes => Block.not_passes_erased (of_decide_eq_true passes)

theorem counters_erased : erasedMedium.begun.counters = [] := by
  rw [Medium.counters_begun, found_erased]
  rfl

theorem counts_writes_once : ∃ finish : Store,
    Run CounterStep erasedStore.begun [(erasedStore.begun, .save calmIo)] finish ∧
      Throughout Store.Counts [(erasedStore.begun, CounterEvent.save calmIo)] finish ∧
        finish.rwFlash.counters = [0, 1] := by
  obtain ⟨-, finish, step, -, written⟩ := save_empty emptied_erasedStore
  have run : Run CounterStep erasedStore.begun
      [(erasedStore.begun, CounterEvent.save calmIo)] finish := Run.nil.snoc step
  have none : erasedStore.begun.rwFlash.counters = [] := counters_erased
  have up : CountsUp erasedMedium.begun.counters := by
    rw [countsUp_iff_chain, counters_erased]
    exact .nil
  refine ⟨finish, run, (counts_writes_iff run).mpr ⟨⟨up, up⟩, ?_⟩, by rw [written, none]; rfl⟩
  intro entry member
  rw [List.mem_singleton.mp member]
  exact fun _ => .inl none

/-- The second save begins with the counter 0 again. -/
theorem counter_restarts : ∃ (trace : List (Store × CounterEvent)) (finish : Store),
    Run CounterStep erasedStore.begun trace finish ∧ ¬finish.Counts ∧
      finish.rwFlash.counters = [0, 1, 0, 1] := by
  obtain ⟨-, middle, first, emptied, written⟩ := save_empty emptied_erasedStore
  obtain ⟨-, finish, second, -, counters⟩ := save_empty emptied
  have run := (Run.nil.snoc first).snoc second
  have images : finish.rwFlash.counters = [0, 1, 0, 1] := by
    have none : erasedStore.begun.rwFlash.counters = [] := counters_erased
    rw [counters, written, none]
    rfl
  refine ⟨_, finish, run, fun counts => ?_, images⟩
  have up := counts.rw 1 2 1 0 (by decide)
  rw [images] at up
  exact absurd (up rfl rfl) (by decide)

end Saves

end Gfiber.Sysvar
