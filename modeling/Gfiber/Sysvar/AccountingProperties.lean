import Mathlib.Algebra.Order.BigOperators.Group.List
import Gfiber.Lib.Run
import Gfiber.Sysvar.SaveProperties

/-! The counter of used bytes against the records in the list, and what a save
followed by a load gives back. -/

set_option autoImplicit false

namespace Gfiber.Sysvar

open Lib

/-- The variables added one by one with `set_var`. -/
def SysvarBuf.setVars (buf : SysvarBuf) (vars : List SysvarList) : SysvarBuf :=
  vars.foldl (fun buf var => (buf.setVar var.name var.value).1) buf

def SysvarBuf.Counted (buf : SysvarBuf) : Prop :=
  buf.usedLen = recordsLen buf.list

/-- The block after a number of SAVE mode updates of `check_var`. -/
def Block.recounted (block : Block) (updates : Nat) : Block :=
  (fun data => (checkVar data .save).1)^[updates] block

section RoundTrip

theorem setVars_fitting {vars : List SysvarList} {buf : SysvarBuf}
    (room : buf.usedLen + recordsLen vars ≤ totalLen) :
    (buf.setVars vars).list = buf.list ++ vars ∧
      (buf.setVars vars).usedLen = buf.usedLen + recordsLen vars := by
  induction vars generalizing buf with
  | nil => simp [SysvarBuf.setVars]
  | cons var rest ih =>
      rw [recordsLen_cons] at room
      obtain ⟨added, adding, list, used, -⟩ := setVar_fitting buf var (by omega)
      obtain ⟨listed, counted⟩ := ih (by omega : added.usedLen + recordsLen rest ≤ totalLen)
      have next : buf.setVars (var :: rest) = added.setVars rest := by
        simp only [SysvarBuf.setVars, List.foldl_cons, adding]
      rw [next, listed, counted, list, used, recordsLen_cons]
      exact ⟨by simp, by omega⟩

theorem len_le_recordsLen {var : SysvarList} {vars : List SysvarList} (member : var ∈ vars) :
    var.len ≤ recordsLen vars :=
  List.single_le_sum (by simp) _ (List.mem_map_of_mem member)

theorem saveVar_counted {buf : SysvarBuf} (storable : Storable buf.list) (counted : buf.Counted) :
    ∃ saved : SysvarBuf, buf.saveVar = .ok (saved, .success) ∧ saved.data.Passes ∧
      saved.data.body = bodyOf buf.list := by
  obtain ⟨saved, code, saving, succeeds, holds⟩ := saveVar_storable storable
  have success : code = .success := by
    refine succeeds fun var member => ?_
    have part := len_le_recordsLen member
    rw [SysvarBuf.Counted] at counted
    simp only [SysvarList.len] at part
    omega
  subst success
  exact ⟨saved, saving, (saveVar_result saving).2 rfl, holds rfl⟩

@[simp] theorem body_recounted (block : Block) (updates : Nat) :
    (block.recounted updates).body = block.body := by
  induction updates with
  | zero => rfl
  | succ updates ih =>
      rw [Block.recounted, Function.iterate_succ_apply', checkVar, Block.body_setWc32]
      exact ih

@[simp] theorem passes_recounted (block : Block) (updates : Nat) :
    (block.recounted updates).Passes ↔ block.Passes := by
  induction updates with
  | zero => rfl
  | succ updates ih =>
      rw [Block.recounted, Function.iterate_succ_apply', checkVar, Block.passes_setWc32]
      exact ih

/-- A list of storable variables, put into a cleared buffer and saved, passes
the check after any number of write counter updates, and loading the block
gives the list back with its counters. -/
theorem codec_round_trip {vars : List SysvarList} {cleared : SysvarBuf} (storable : Storable vars)
    (empty : cleared.list = []) :
    (cleared.setVars vars).list = vars ∧ ∃ saved : SysvarBuf,
      (cleared.setVars vars).saveVar = .ok (saved, .success) ∧
        ∀ (updates : Nat) (target : SysvarBuf), target.data = saved.data.recounted updates →
          (checkVar target.data .load).2 = .success ∧ ∃ loaded : SysvarBuf,
            target.loadVar = .ok (loaded, .success) ∧ loaded.list = vars ∧
              loaded.usedLen = (cleared.setVars vars).usedLen ∧
                loaded.freeLen = (cleared.setVars vars).freeLen := by
  have unused := usedLen_of_empty empty
  have fits := storable.fits
  obtain ⟨list, used⟩ := setVars_fitting (by omega : cleared.usedLen + recordsLen vars ≤ totalLen)
  rw [empty, List.nil_append] at list
  have counted : (cleared.setVars vars).Counted := by
    rw [SysvarBuf.Counted, list]
    omega
  obtain ⟨saved, saving, passes, body⟩ := saveVar_counted (list.symm ▸ storable) counted
  refine ⟨list, saved, saving, fun updates target same => ⟨?_, ?_⟩⟩
  · have kept := (passes_recounted saved.data updates).mpr passes
    rw [same, checkVar]
    exact if_pos kept
  · have holds : target.data.body = bodyOf vars := by rw [same, body_recounted, body, list]
    obtain ⟨loaded, loading, listed, bytes, -⟩ := loadVar_bodyOf storable holds
    have level : loaded.usedLen = (cleared.setVars vars).usedLen := by omega
    exact ⟨loaded, loading, listed, level, by rw [SysvarBuf.freeLen, SysvarBuf.freeLen, level]⟩

def filler (count : Nat) : SysvarList where
  name := ⟨[0x66], by decide⟩
  value := ⟨List.replicate count 0x62,
    fun member => absurd (List.eq_of_mem_replicate member) (by decide)⟩
  name_fits := by decide

@[simp] theorem len_filler (count : Nat) : (filler count).len = nameSize + 2 + count := by
  rw [SysvarList.len, CString.strlen, filler, List.length_replicate]

theorem storable_filler (count : Nat) : (filler count).Storable where
  named := List.cons_ne_nil _ _
  name_clean := show (0xff : Byte) ∉ [0x66] by decide
  value_clean := fun marked => absurd (List.eq_of_mem_replicate marked) (by decide)

def hello : SysvarList where
  name := ⟨[0x67], by decide⟩
  value := ⟨[0x68, 0x69], by decide⟩
  name_fits := by decide

/-- Two variables that fill the buffer. -/
theorem storable_full : Storable [hello, filler 65458] where
  each := by
    intro var member
    rcases List.mem_cons.mp member with rfl | other
    · exact ⟨by decide, by decide, by decide⟩
    · exact List.mem_singleton.mp other ▸ storable_filler 65458
  fits := by
    have first : hello.len = nameSize + 4 := rfl
    rw [recordsLen_cons, recordsLen_cons, recordsLen_nil, len_filler, first]
    decide

theorem codec_round_trip_full :
    let written := SysvarBuf.setVars (.init .erased) [hello, filler 65458]
    written.list = [hello, filler 65458] ∧ ∃ saved : SysvarBuf,
      written.saveVar = .ok (saved, .success) ∧
        ∀ (updates : Nat) (target : SysvarBuf), target.data = saved.data.recounted updates →
          (checkVar target.data .load).2 = .success ∧ ∃ loaded : SysvarBuf,
            target.loadVar = .ok (loaded, .success) ∧ loaded.list = [hello, filler 65458] ∧
              loaded.usedLen = written.usedLen ∧ loaded.freeLen = written.freeLen :=
  codec_round_trip storable_full (rfl : (SysvarBuf.init .erased).list = [])

end RoundTrip

/-- A store with what its successful `setvar` calls promise, and the blocks
`save_var` has made with the promises each of them holds. -/
structure Ledger where
  store : Store
  standing : List (CString × CString)
  images : List (Block × List (CString × CString))

namespace Ledger

inductive Event where
  | set (name value : Option CString)
  | save
  | load (image : Block × List (CString × CString)) (updates : Nat)

def promise (standing : List (CString × CString)) (value : Option CString) :
    Option CString → List (CString × CString)
  | none => []
  | some name => standing.filter (·.1 ≠ name) ++ (value.map (name, ·)).toList

def set (ledger : Ledger) (name value : Option CString) : Ledger :=
  { ledger with
    store := (ledger.store.setvar name value).1
    standing :=
      if (ledger.store.setvar name value).2 = .success then promise ledger.standing value name
      else ledger.standing }

inductive Step : Ledger → Event → Ledger → Prop where
  | set {ledger : Ledger} {name value : Option CString} :
      Step ledger (.set name value) (ledger.set name value)
  | save {ledger : Ledger} {saved : SysvarBuf} {code : ErrorCode}
      (saving : ledger.store.rwBuf.saveVar = .ok (saved, code)) : Step ledger .save
      { ledger with
        store := { ledger.store with rwBuf := saved }
        images := if code = .success then (saved.data, ledger.standing) :: ledger.images
          else ledger.images }
  | load {ledger : Ledger} {image : Block × List (CString × CString)} {updates : Nat}
      {loaded : SysvarBuf} {code : ErrorCode} (saved : image ∈ ledger.images)
      (loading : { ledger.store.rwBuf with data := image.1.recounted updates }.loadVar =
        .ok (loaded, code)) : Step ledger (.load image updates)
      { ledger with store := { ledger.store with rwBuf := loaded }, standing := image.2 }

end Ledger

def SysvarBuf.without (buf : SysvarBuf) (name : CString) : List SysvarList :=
  buf.list.eraseP (·.named name)

/-- A variable set in the list can be stored and there is room for it, and a
name too long to be stored does not begin with the name of another variable. -/
def SetFits (ledger : Ledger) : Ledger.Event → Prop
  | .set (some name) value => ledger.store.roBuf.findVar name = none →
      (nameSize < name.strlen → ledger.store.rwBuf.findVar name = none) ∧
        ∀ text fits, value = some text →
          (SysvarList.mk name text fits).Storable ∧
            recordsLen (ledger.store.rwBuf.without name) + (nameSize + 2 + text.strlen) ≤ totalLen
  | _ => True

section Setting

theorem deleteVar_found {buf : SysvarBuf} {index : Nat} {var : SysvarList}
    (found : buf.list[index]? = some var) : ∃ removed : SysvarBuf,
      buf.deleteVar index = (removed, .success) ∧ removed.list = buf.list.eraseIdx index ∧
        (buf.Counted → removed.Counted) := by
  have parts := recordsLen_eraseIdx found
  have limit := buf.limited
  unfold SysvarBuf.deleteVar
  split
  case h_1 missing =>
    rw [found] at missing
    cases missing
  case h_2 other same =>
    refine ⟨_, rfl, rfl, fun counted => ?_⟩
    rw [found] at same
    cases same
    simp only [SysvarBuf.Counted, sysvarLen] at counted ⊢
    omega

theorem without_eq (buf : SysvarBuf) (name : CString) : buf.without name =
    match buf.findVar name with
    | none => buf.list
    | some index => buf.list.eraseIdx index := by
  rw [SysvarBuf.without, List.eraseP_eq_eraseIdx]
  rfl

/-- `setvar` of a name takes the variable found under it out of the list and
then adds the new one. -/
theorem setvar_named {store : Store} {name : CString} (value : Option CString)
    (opened : checkMtd store.devices = .success) (writable : store.roBuf.findVar name = none) :
    ∃ left : SysvarBuf, left.list = store.rwBuf.without name ∧
      (store.rwBuf.Counted → left.Counted) ∧
        store.setvar (some name) value = { store with rwBuf := left }.add name value
          (if (store.rwBuf.findVar name).isSome then .success else .existedErr) := by
  rw [Store.setvar, if_pos opened]
  simp only [writable, Option.isSome_none, Bool.false_eq_true, if_false]
  cases found : store.rwBuf.findVar name with
  | none => exact ⟨store.rwBuf, by rw [without_eq, found], id, rfl⟩
  | some index =>
      obtain ⟨bound, -⟩ := List.findIdx?_eq_some_iff_getElem.mp found
      obtain ⟨removed, deleted, list, level⟩ := deleteVar_found (List.getElem?_eq_getElem bound)
      refine ⟨removed, by rw [list, without_eq, found], level, ?_⟩
      simp only [deleted, Option.isSome_some, if_true]

theorem named_iff {var : SysvarList} {name : CString} (short : name.strlen ≤ nameSize) :
    var.named name = true ↔ var.name = name := by
  rw [SysvarList.named, List.take_of_length_le var.name_fits, List.take_of_length_le short,
    decide_eq_true_iff]
  constructor
  · intro same
    obtain ⟨⟨bytes, _⟩, _, _⟩ := var
    cases same
    rfl
  · exact congrArg CString.bytes

theorem without_of_missing {buf : SysvarBuf} {name : CString} (missing : buf.findVar name = none) :
    buf.without name = buf.list := by
  rw [without_eq, missing]

end Setting

def SysvarList.entry (var : SysvarList) : CString × CString :=
  (var.name, var.value)

/-- The list holds exactly the standing entries, each name once. -/
structure Holds (vars : List SysvarList) (standing : List (CString × CString)) : Prop where
  storable : Storable vars
  entries : vars.map SysvarList.entry = standing
  distinct : (standing.map Prod.fst).Nodup

section Holding

variable {vars : List SysvarList} {standing : List (CString × CString)} {name : CString}

theorem entries_eraseP (short : name.strlen ≤ nameSize)
    (distinct : ((vars.map SysvarList.entry).map Prod.fst).Nodup) :
    (vars.eraseP (·.named name)).map SysvarList.entry =
      (vars.map SysvarList.entry).filter (·.1 ≠ name) := by
  induction vars with
  | nil => rfl
  | cons var rest ih =>
      rw [List.map_cons, List.map_cons, List.nodup_cons] at distinct
      by_cases same : var.name = name
      · have others : ∀ entry ∈ rest.map SysvarList.entry, decide (entry.1 ≠ name) = true := by
          intro entry member
          refine decide_eq_true fun equal => distinct.1 ?_
          exact List.mem_map.mpr ⟨entry, member, equal.trans same.symm⟩
        rw [List.eraseP_cons, (named_iff short).mpr same, cond_true, List.map_cons,
          List.filter_cons_of_neg (by simp [SysvarList.entry, same]),
          List.filter_eq_self.mpr others]
      · have passed : var.named name = false := Bool.eq_false_iff.mpr (mt (named_iff short).mp same)
        rw [List.eraseP_cons, passed, cond_false, List.map_cons, List.map_cons,
          List.filter_cons_of_pos (by simp [SysvarList.entry, same]), ih distinct.2]

theorem Holds.eraseP (holds : Holds vars standing) (short : name.strlen ≤ nameSize) :
    Holds (vars.eraseP (·.named name)) (standing.filter (·.1 ≠ name)) := by
  obtain ⟨⟨each, fits⟩, rfl, distinct⟩ := holds
  refine ⟨⟨fun var member => each var (List.mem_of_mem_eraseP member), ?_⟩,
    entries_eraseP short distinct, ?_⟩
  · refine le_trans ?_ fits
    exact (List.eraseP_sublist.map SysvarList.len).sum_le_sum fun _ _ => Nat.zero_le _
  · exact distinct.sublist (List.filter_sublist.map Prod.fst)

theorem Holds.snoc (holds : Holds vars (standing.filter (·.1 ≠ name))) {value : CString}
    {fits : name.strlen ≤ nameSize} (storable : (SysvarList.mk name value fits).Storable)
    (room : recordsLen vars + (nameSize + 2 + value.strlen) ≤ totalLen) :
    Holds (vars ++ [⟨name, value, fits⟩]) (standing.filter (·.1 ≠ name) ++ [(name, value)]) := by
  refine ⟨⟨fun var member => ?_, ?_⟩, ?_, ?_⟩
  · rcases List.mem_append.mp member with old | new
    · exact holds.storable.each var old
    · exact List.mem_singleton.mp new ▸ storable
  · rw [recordsLen_append, recordsLen_cons, recordsLen_nil, SysvarList.len]
    omega
  · rw [List.map_append, holds.entries]
    rfl
  · rw [List.map_append, List.nodup_append]
    refine ⟨holds.distinct, by simp, ?_⟩
    intro first old second new equal
    obtain ⟨entry, member, rfl⟩ := List.mem_map.mp old
    have same : second = name := by simpa using new
    have other := (List.mem_filter.mp member).2
    simp [equal, same] at other

/-- Looking a standing name up finds its value. -/
theorem Holds.find (holds : Holds vars standing) {entry : CString × CString}
    (member : entry ∈ standing) :
    (vars.find? (·.named entry.1)).map SysvarList.value = some entry.2 := by
  obtain ⟨-, rfl, distinct⟩ := holds
  obtain ⟨var, listed, rfl⟩ := List.mem_map.mp member
  clear member
  induction vars with
  | nil => cases listed
  | cons first rest ih =>
      rw [List.map_cons, List.map_cons, List.nodup_cons] at distinct
      rcases List.mem_cons.mp listed with rfl | later
      · have found : var.named var.name = true := (named_iff var.name_fits).mpr rfl
        simp only [SysvarList.entry, List.find?_cons, found, Option.map_some]
      · have other : first.named var.entry.1 = false := by
          rw [Bool.eq_false_iff, Ne, SysvarList.entry, named_iff var.name_fits]
          intro same
          exact distinct.1 (List.mem_map.mpr ⟨_, List.mem_map_of_mem later, same.symm⟩)
        simp only [List.find?_cons, other]
        exact ih distinct.2 later

end Holding

/-- No record touches a byte past `total_len`: the counter is still erased when
`check_var` writes the checksum. -/
theorem saveLoop_inside {usedLen offset : Nat} {vars : List SysvarList} {data image : Block}
    (inside : offset + recordsLen vars ≤ totalLen)
    (loop : SysvarBuf.saveLoop usedLen vars offset data = .ok (image, .success)) :
    ∃ records : Block, image = records.setCrc32 ∧
      records.bytes.drop totalLen = data.bytes.drop totalLen := by
  have size : totalLen ≤ blockSize := by decide
  induction vars generalizing offset data with
  | nil =>
      cases loop
      exact ⟨data, rfl, rfl⟩
  | cons var others ih =>
      rw [recordsLen_cons] at inside
      obtain ⟨named, counted, valued, storedName, storedLength, storedValue, -, dropped⟩ :=
        store_record data offset var (by omega)
      have positive : 0 < var.len := by
        simp only [SysvarList.len]
        omega
      rw [SysvarBuf.saveLoop, if_pos (by omega), storedName] at loop
      simp only [bind, Except.bind] at loop
      split at loop
      case isTrue => cases loop
      case isFalse =>
        simp only [storedLength, storedValue] at loop
        have next : offset + nameSize + 2 + var.value.strlen = offset + var.len := by
          simp only [SysvarList.len]
          omega
        rw [next] at loop
        obtain ⟨records, same, kept⟩ := ih (by omega) loop
        obtain ⟨rest, parts⟩ := Nat.exists_eq_add_of_le (by omega : offset + var.len ≤ totalLen)
        have untouched : valued.bytes.drop totalLen = data.bytes.drop totalLen := by
          rw [parts, ← List.drop_drop, dropped, List.drop_drop]
        exact ⟨records, same, kept.trans untouched⟩

structure Ledger.Sound (ledger : Ledger) : Prop where
  opened : checkMtd ledger.store.devices = .success
  counted : ledger.store.rwBuf.Counted
  holds : Holds ledger.store.rwBuf.list ledger.standing
  images : ∀ image ∈ ledger.images, ∃ vars : List SysvarList,
    image.1.body = bodyOf vars ∧ Holds vars image.2

/-- The counter is the sum of the records and within `total_len`, a save
succeeds without touching a byte past it, and what was promised is there
after `savevar` and the load of the RW buffer in `loadvar`. -/
structure Ledger.Accounted (ledger : Ledger) : Prop where
  counted : ledger.store.rwBuf.usedLen = recordsLen ledger.store.rwBuf.list
  limited : ledger.store.rwBuf.usedLen ≤ totalLen
  inside : ∃ (saved : SysvarBuf) (records : Block),
    ledger.store.rwBuf.saveVar = .ok (saved, .success) ∧ saved.data = records.setCrc32 ∧
      records.bytes.drop totalLen = List.replicate (wc32Size + crc32Size) 0xff
  survives : ∀ (io : FlashIo) (rwIo : LoadIo), (∀ side, io.Repairs side) → rwIo.ReadsFull →
    ∃ after : Store, ledger.store.savevar io = .ok (after, .returned .success) ∧
      ∃ (loaded : SysvarBuf) (medium : Medium),
        loadBuf after.devices rwIo after.rwBuf after.rwFlash =
            .ok (loaded, medium, .returned .success) ∧
          ∀ entry ∈ ledger.standing,
            (loaded.list.find? (·.named entry.1)).map SysvarList.value = some entry.2

section Ledgers

/-- `savevar` with no failure leaves the same valid block in both partitions. -/
theorem savevar_done {store : Store} {io : FlashIo} (repairs : ∀ side, io.Repairs side)
    (opened : checkMtd store.devices = .success) (storable : Storable store.rwBuf.list)
    (counted : store.rwBuf.Counted) : ∃ after : Store,
      store.savevar io = .ok (after, .returned .success) ∧ after.devices = store.devices ∧
        ∀ side, (after.rwFlash.flash side).Passes ∧
          (after.rwFlash.flash side).body = bodyOf store.rwBuf.list := by
  obtain ⟨saved, saving, passes, body⟩ := saveVar_counted storable counted
  have result := Store.savevar_of_saveVar io saving
  simp only [dataSave, if_pos opened, rewrite_done _ _ (repairs _), saveSides] at result
  refine ⟨_, result, rfl, fun side => ?_⟩
  rcases side.eq_or_eq_other (firstSide store.rwBuf.failed) with rfl | rfl
  · simp [Medium.perform, passes, body]
  · simp [Medium.perform, passes, body]

theorem Ledger.Sound.accounted {ledger : Ledger} (sound : ledger.Sound) : ledger.Accounted := by
  obtain ⟨opened, counted, holds, -⟩ := sound
  refine ⟨counted, ledger.store.rwBuf.limited, ?_, ?_⟩
  · obtain ⟨saved, saving, -⟩ := saveVar_counted holds.storable counted
    obtain ⟨⟨image, code⟩, loop, rest⟩ := bind_eq_ok saving
    simp only [pure, Except.pure, Except.ok.injEq, Prod.mk.injEq] at rest
    obtain ⟨rfl, rfl⟩ := rest
    have fits := holds.storable.fits
    obtain ⟨records, same, kept⟩ := saveLoop_inside (by omega) loop
    refine ⟨_, records, saving, same, kept.trans ?_⟩
    rw [Block.erased, List.drop_replicate]
    rfl
  · intro io rwIo repairs reads
    obtain ⟨after, saving, devices, flash⟩ := savevar_done repairs opened holds.storable counted
    have clean : rwIo.Clean after.rwFlash.flash :=
      ⟨⟨(reads .zero).1, (flash .zero).1⟩, ⟨(reads .one).1, (flash .one).1⟩⟩
    obtain ⟨loaded, loading, listed, -⟩ := loadBuf_storable holds.storable
      (dataLoad_clean after.rwBuf after.rwFlash (devices ▸ opened) clean) (flash .one).2
    exact ⟨after, saving, loaded, _, loading, fun entry member => listed ▸ holds.find member⟩

variable {ledger next : Ledger} {event : Ledger.Event}

/-- The buffer that `setvar` leaves holds what its code promises. -/
structure Follows (standing : List (CString × CString)) (name value : Option CString)
    (outcome : Store × ErrorCode) : Prop where
  counted : outcome.1.rwBuf.Counted
  holds : Holds outcome.1.rwBuf.list
    (if outcome.2 = .success then Ledger.promise standing value name else standing)

section Outcomes

variable {store : Store} {standing : List (CString × CString)} {name : CString}

theorem follows_clear (opened : checkMtd store.devices = .success) (value : Option CString) :
    Follows standing none value (store.setvar none value) := by
  obtain ⟨cleared, clearing, empty, -⟩ := clearLoop_success store.rwBuf.list store.rwBuf rfl
  rw [Store.setvar, if_pos opened, SysvarBuf.clearVar, clearing]
  constructor
  · simpa only [SysvarBuf.Counted, empty, recordsLen_nil] using usedLen_of_empty empty
  · simp only [if_true, Ledger.promise, empty]
    exact ⟨storable_nil, rfl, List.nodup_nil⟩

variable {left : SysvarBuf} (holds : Holds store.rwBuf.list standing)
  (list : left.list = store.rwBuf.without name) (level : left.Counted)
  (whole : nameSize < name.strlen → store.rwBuf.findVar name = none)

include holds list level whole

/-- Without a value, the variable found under the name is gone. -/
theorem follows_unset : Follows standing (some name) none
    ({ store with rwBuf := left }.add name none
      (if (store.rwBuf.findVar name).isSome then .success else .existedErr)) := by
  cases found : store.rwBuf.findVar name with
  | none =>
      rw [without_of_missing found] at list
      exact ⟨level, by simpa [Store.add, list] using holds⟩
  | some index =>
      -- a name that is found is short, so that the lookup names the entry exactly
      have short : name.strlen ≤ nameSize := by
        by_contra long
        rw [whole (by omega)] at found
        cases found
      refine ⟨level, ?_⟩
      simpa [Store.add, list, Ledger.promise, SysvarBuf.without] using holds.eraseP short

theorem follows_add {text : CString} (absent : ErrorCode)
    (fitting : ∀ fits, (SysvarList.mk name text fits).Storable ∧
      recordsLen (store.rwBuf.without name) + (nameSize + 2 + text.strlen) ≤ totalLen) :
    Follows standing (some name) (some text)
      ({ store with rwBuf := left }.add name (some text) absent) := by
  by_cases named : name.strlen ≤ nameSize
  · obtain ⟨clean, room⟩ := fitting named
    have space : left.usedLen + (SysvarList.mk name text named).len ≤ totalLen := by
      rw [level, list]
      exact room
    obtain ⟨added, adding, listed, used, -⟩ := setVar_fitting left _ space
    have kept := (holds.eraseP named).snoc clean room
    simp only [Store.add, adding]
    constructor
    · rw [SysvarBuf.Counted, used, listed, level, recordsLen_append, recordsLen_cons,
        recordsLen_nil, Nat.add_zero]
    · simpa [Ledger.promise, listed, list, SysvarBuf.without] using kept
  · have missing := whole (by omega)
    rw [without_of_missing missing] at list
    have refused : left.setVar name text = (left, .paramErr) := dif_neg named
    simp only [Store.add, refused]
    exact ⟨level, by simpa [list] using holds⟩

end Outcomes

theorem Ledger.Sound.set (sound : ledger.Sound) {name value : Option CString}
    (fits : SetFits ledger (.set name value)) : (ledger.set name value).Sound := by
  obtain ⟨opened, counted, holds, images⟩ := sound
  obtain ⟨rwBuf, frame, -⟩ := ledger.store.setvar_frame name value
  have devices : (ledger.store.setvar name value).1.devices = ledger.store.devices := by rw [frame]
  suffices kept : Follows ledger.standing name value (ledger.store.setvar name value) from
    ⟨by rw [Ledger.set, devices]; exact opened, kept.counted, kept.holds, images⟩
  cases name with
  | none => exact follows_clear opened value
  | some name =>
      cases readonly : ledger.store.roBuf.findVar name with
      | some index =>
          have refused : ledger.store.setvar (some name) value = (ledger.store, .readonlyErr) := by
            rw [Store.setvar, if_pos opened]
            simp only [readonly, Option.isSome_some, if_true]
          rw [refused]
          exact ⟨counted, holds⟩
      | none =>
          obtain ⟨whole, storable⟩ := fits readonly
          obtain ⟨left, list, level, result⟩ := setvar_named value opened readonly
          rw [result]
          cases value with
          | none => exact follows_unset holds list (level counted) whole
          | some text =>
              exact follows_add holds list (level counted) whole _ fun named => storable text named rfl

theorem Ledger.Sound.step (sound : ledger.Sound) (fits : SetFits ledger event)
    (step : Ledger.Step ledger event next) : next.Sound := by
  cases step with
  | set => exact sound.set fits
  | @save saved code saving =>
      obtain ⟨image, again, -, body⟩ := saveVar_counted sound.holds.storable sound.counted
      rw [again] at saving
      cases saving
      have same := (saveVar_result again).1
      refine ⟨sound.opened, ?_, ?_, ?_⟩
      · rw [same]
        exact sound.counted
      · rw [same]
        exact sound.holds
      · simp only [if_true, List.mem_cons]
        rintro each (rfl | old)
        · exact ⟨_, body, sound.holds⟩
        · exact sound.images each old
  | @load image updates loaded code saved loading =>
      obtain ⟨vars, body, holds⟩ := sound.images image saved
      have shown : (SysvarBuf.data
          { ledger.store.rwBuf with data := image.1.recounted updates }).body = bodyOf vars :=
        (body_recounted image.1 updates).trans body
      obtain ⟨other, again, listed, counted, -⟩ := loadVar_bodyOf holds.storable shown
      rw [again] at loading
      cases loading
      refine ⟨sound.opened, ?_, listed ▸ holds, sound.images⟩
      rw [SysvarBuf.Counted, counted, listed]

end Ledgers

/-- A new store before the first load, with any read-only variables. -/
def Ledger.fresh (store : Store) (allocated : Block) : Ledger where
  store := { store with devices := fun _ => true, rwBuf := .init allocated }
  standing := []
  images := []

/-- In every run of sets, saves and loads in which each variable set can be
stored and fits, the counter is exact in every state, saves stay inside
`total_len`, and no variable is lost by a save and a load. -/
theorem space_accounted {store : Store} {allocated : Block} {finish : Ledger}
    {trace : List (Ledger × Ledger.Event)}
    (run : Run Ledger.Step (.fresh store allocated) trace finish)
    (fits : StepsMeet SetFits trace) : Throughout Ledger.Accounted trace finish := by
  have initial : (Ledger.fresh store allocated).Sound :=
    ⟨by simp [Ledger.fresh, checkMtd], rfl, ⟨storable_nil, rfl, List.nodup_nil⟩, by simp [Ledger.fresh]⟩
  have sound := run.throughout initial (fun sound fits step => sound.step fits step) fits
  exact ⟨fun entry member => (sound.1 entry member).accounted, sound.2.accounted⟩

section Filling

theorem setvar_first (var : SysvarList) :
    ((Ledger.fresh blankStore .erased).store.setvar (some var.name) (some var.value)).1.rwBuf.list =
      [var] := by
  have opened : checkMtd (Ledger.fresh blankStore .erased).store.devices = .success := by
    simp [Ledger.fresh, checkMtd]
  have writable : (Ledger.fresh blankStore .erased).store.roBuf.findVar var.name = none := rfl
  have absent : (Ledger.fresh blankStore .erased).store.rwBuf.findVar var.name = none := rfl
  rw [Store.setvar, if_pos opened]
  simp only [writable, absent, Option.isSome_none, Bool.false_eq_true, if_false, Store.add,
    SysvarBuf.setVar, dif_pos var.name_fits]
  rfl

def filling (count : Nat) : Ledger.Event :=
  .set (some (filler count).name) (some (filler count).value)

theorem fits_filling : SetFits (.fresh blankStore .erased) (filling 65494) := by
  refine fun _ => ⟨fun _ => rfl, fun text fits same => ?_⟩
  cases same
  refine ⟨storable_filler 65494, ?_⟩
  have size := len_filler 65494
  rw [SysvarList.len] at size
  rw [size]
  decide

theorem space_accounted_full : ∃ finish : Ledger,
    Run Ledger.Step (.fresh blankStore .erased) [(.fresh blankStore .erased, filling 65494)] finish ∧
      finish.store.rwBuf.list = [filler 65494] ∧
        finish.store.rwBuf.usedLen = recordsLen finish.store.rwBuf.list := by
  have run : Run Ledger.Step (.fresh blankStore .erased)
      [(.fresh blankStore .erased, filling 65494)] _ := Run.nil.snoc .set
  have whole := space_accounted run (by
    intro entry member
    rw [List.mem_singleton] at member
    exact member ▸ fits_filling)
  exact ⟨_, run, setvar_first (filler 65494), whole.2.counted⟩

/-- A value of `total_len` bytes is added all the same, and the counter is clamped. -/
theorem space_clamped : ∃ (finish : Ledger) (trace : List (Ledger × Ledger.Event)),
    Run Ledger.Step (.fresh blankStore .erased) trace finish ∧
      finish.store.rwBuf.usedLen ≠ recordsLen finish.store.rwBuf.list := by
  have run : Run Ledger.Step (.fresh blankStore .erased)
      [(.fresh blankStore .erased, filling totalLen)] _ := Run.nil.snoc .set
  refine ⟨_, _, run, fun counted => ?_⟩
  have limit := ((Ledger.fresh blankStore .erased).store.setvar (some (filler totalLen).name)
    (some (filler totalLen).value)).1.rwBuf.limited
  have list := setvar_first (filler totalLen)
  rw [Ledger.set, list] at counted
  rw [counted, recordsLen_cons, len_filler, nameSize] at limit
  omega

end Filling

end Gfiber.Sysvar
