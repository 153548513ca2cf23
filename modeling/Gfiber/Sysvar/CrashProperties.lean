import Gfiber.Sysvar.Crash

/-! Which variables a reload shows after power was lost, over any number of
saves, losses and reloads. A reload can show the variables of a save that was
cut; from then on these are the variables in force. -/

set_option autoImplicit false

namespace Gfiber.Sysvar

open Lib

/-- A device over its boots, with the variables of the last save that
completed, the variables in force and those of the save that was cut since. -/
structure Life where
  store : Store
  running : Bool
  completed : Option (List SysvarList)
  force : Option (List SysvarList)
  interrupted : Option (List SysvarList)

inductive LifeEvent where
  | set (name value : Option CString)
  | save (io : FlashIo)
  | load (rwIo roIo : LoadIo)
  | crash
  | restart (rwData roData : Block) (rwIo roIo : LoadIo)

/-- The store a reload starts from: that of the process, or a new one over the
same flash. -/
def Life.reload (life : Life) : LifeEvent → Option (Store × LoadIo × LoadIo)
  | .load rwIo roIo => if life.running then some (life.store, rwIo, roIo) else none
  | .restart rwData roData rwIo roIo =>
      if life.running then none
      else some (.opened life.store.rwFlash life.store.roFlash rwData roData, rwIo, roIo)
  | _ => none

inductive LifeStep : Life → LifeEvent → Life → Prop where
  | set {life : Life} {name value : Option CString} (running : life.running = true) :
      LifeStep life (.set name value) { life with store := (life.store.setvar name value).1 }
  | saved {life : Life} {io : FlashIo} {next : Store} (running : life.running = true)
      (result : life.store.savevar io = .ok (next, .returned .success)) :
      LifeStep life (.save io)
        { store := next, running := true, completed := some life.store.rwBuf.list,
          force := some life.store.rwBuf.list, interrupted := none }
  | refused {life : Life} {io : FlashIo} {next : Store} {code : ErrorCode}
      (running : life.running = true)
      (result : life.store.savevar io = .ok (next, .returned code)) (failure : code ≠ .success) :
      LifeStep life (.save io) { life with store := next }
  | cut {life : Life} {io : FlashIo} {next : Store} (running : life.running = true)
      (result : life.store.savevar io = .ok (next, .lost)) :
      LifeStep life (.save io)
        { life with
          store := next, running := false, interrupted := some life.store.rwBuf.list }
  | crash {life : Life} : LifeStep life .crash { life with running := false }
  | loaded {life : Life} {event : LifeEvent} {store next : Store} {rwIo roIo : LoadIo}
      {code : ErrorCode} (reload : life.reload event = some (store, rwIo, roIo))
      (result : store.loadvar rwIo roIo = .ok (next, .returned code)) :
      LifeStep life event
        { life with
          store := next, running := true, force := life.force.map fun _ => next.rwBuf.list,
          interrupted := none }
  | reloadCut {life : Life} {event : LifeEvent} {store next : Store} {rwIo roIo : LoadIo}
      (reload : life.reload event = some (store, rwIo, roIo))
      (result : store.loadvar rwIo roIo = .ok (next, .lost)) :
      LifeStep life event { life with store := next, running := false }

def CrashOnly (_ : Life) : LifeEvent → Prop
  | .save io => io.Crashes
  | .load rwIo _ => rwIo.ReadsFull ∧ rwIo.Crashes
  | .restart _ _ rwIo _ => rwIo.ReadsFull ∧ rwIo.Crashes
  | _ => True

def SavesStorable (life : Life) : LifeEvent → Prop
  | .save _ => Storable life.store.rwBuf.list
  | _ => True

/-- Once a save has completed, a reload is cut again or returns success for
the RW variables, and shows exactly the variables in force or exactly those of
the save that was cut. -/
def ReloadShows (life : Life) (event : LifeEvent) : Prop :=
  ∀ (vars : List SysvarList) (store : Store) (rwIo roIo : LoadIo), life.force = some vars →
    life.reload event = some (store, rwIo, roIo) →
      (∃ (loaded : SysvarBuf) (after : Medium) (status : Status),
        loadBuf store.devices rwIo store.rwBuf store.rwFlash = .ok (loaded, after, status) ∧
          (status = .lost ∨ status = .returned .success ∧
            (loaded.list = vars ∨ life.interrupted = some loaded.list))) ∧
      ∀ (next : Store) (code : ErrorCode), store.loadvar rwIo roIo = .ok (next, .returned code) →
        next.rwBuf.list = vars ∨ life.interrupted = some next.rwBuf.list

def Held (flash : Partitions) (failed : Side → Bool) : Prop :=
  copiesOf flash (firstSide failed).other = shown (copiesOf flash)

structure Life.Kept (life : Life) : Prop where
  opened : life.running = true → checkMtd life.store.devices = .success
  promised : ∀ vars, life.force = some vars → ∃ seen : List SysvarList, Storable seen ∧
    seenBody life.store.rwFlash.flash = bodyOf seen ∧
      (seen = vars ∨ life.interrupted = some seen) ∧
        (life.running = true → seen = vars ∧
          Held life.store.rwFlash.flash life.store.rwBuf.failed)

section Reloading

variable {devices : Devices} {io : LoadIo} {medium : Medium} {seen : List SysvarList}

theorem loadBuf_crash (buf : SysvarBuf) (opened : checkMtd devices = .success)
    (reads : io.ReadsFull) (crashes : io.Crashes) (storable : Storable seen)
    (shows : seenBody medium.flash = bodyOf seen) :
    ∃ (loaded : SysvarBuf) (after : Medium) (status : Status),
      loadBuf devices io buf medium = .ok (loaded, after, status) ∧
        seenBody after.flash = bodyOf seen ∧ (status = .lost ∨ status = .returned .success ∧
          loaded.list = seen ∧ Held after.flash loaded.failed) := by
  obtain ⟨read, after, status, loading, standing, ended⟩ :=
    dataLoad_crash buf medium opened reads crashes
  have kept : seenBody after.flash = bodyOf seen := by
    rw [← shows, seenBody, seenBody, standing]
  rcases ended with rfl | ⟨rfl, body, held⟩
  · refine ⟨read, after, .lost, ?_, kept, .inl rfl⟩
    rw [loadBuf, loading]
  · obtain ⟨loaded, result, listed, -, flags⟩ :=
      loadBuf_storable storable loading (body.trans shows)
    exact ⟨loaded, after, _, result, kept, .inr ⟨rfl, listed, by rw [Held, flags, held]⟩⟩

end Reloading

theorem savevar_crash {store next : Store} {io : FlashIo} {status : Status}
    (opened : checkMtd store.devices = .success) (storable : Storable store.rwBuf.list)
    (crashes : io.Crashes) (result : store.savevar io = .ok (next, status)) :
    next.devices = store.devices ∧ next.rwBuf.failed = store.rwBuf.failed ∧
      (status = .returned .saveErr ∧ next.rwFlash = store.rwFlash ∨
        status = .returned .success ∧
          (∀ each, copiesOf next.rwFlash.flash each = some (bodyOf store.rwBuf.list)) ∨
        status = .lost ∧ Mirroring (copiesOf store.rwFlash.flash) (firstSide store.rwBuf.failed)
          (bodyOf store.rwBuf.list) (copiesOf next.rwFlash.flash)) := by
  rcases Store.savevar_cases result with
    ⟨saved, code, saving, failure, rfl, rfl⟩ | ⟨saved, saving, medium, data, saves, rfl⟩
  · exact ⟨rfl, by rw [(saveVar_result saving).1], .inl ⟨rfl, rfl⟩⟩
  · obtain ⟨same, passes⟩ := saveVar_result saving
    have body : saved.data.body = bodyOf store.rwBuf.list := by
      obtain ⟨other, code, again, -, holds⟩ := saveVar_storable storable
      rw [saving] at again
      cases again
      exact holds rfl
    refine ⟨rfl, by rw [same], .inr ?_⟩
    rw [dataSave, if_pos opened] at saves
    have ended := saveSides_crash (firstSide store.rwBuf.failed) store.rwFlash crashes (passes rfl)
    rw [saves, body] at ended
    exact ended

section Life

variable {life next : Life} {event : LifeEvent}

theorem reload_cases {store : Store} {rwIo roIo : LoadIo}
    (reload : life.reload event = some (store, rwIo, roIo)) :
    event = .load rwIo roIo ∧ life.running = true ∧ store = life.store ∨
      ∃ rwData roData : Block, event = .restart rwData roData rwIo roIo ∧
        store = .opened life.store.rwFlash life.store.roFlash rwData roData := by
  unfold Life.reload at reload
  split at reload
  case h_1 =>
    split at reload
    case isTrue running =>
      cases reload
      exact .inl ⟨rfl, running, rfl⟩
    case isFalse => cases reload
  case h_2 rwData roData _ _ =>
    split at reload
    case isTrue => cases reload
    case isFalse =>
      cases reload
      exact .inr ⟨rwData, roData, rfl, rfl⟩
  case h_3 => cases reload

/-- While the host is down only the flash has to keep what was promised. -/
theorem Life.Kept.of_stopped (stopped : life.running = false)
    (promised : ∀ vars, life.force = some vars → ∃ seen : List SysvarList, Storable seen ∧
      seenBody life.store.rwFlash.flash = bodyOf seen ∧
        (seen = vars ∨ life.interrupted = some seen)) : life.Kept := by
  have down : ¬life.running = true := by simp [stopped]
  refine ⟨fun running => absurd running down, fun vars force => ?_⟩
  obtain ⟨seen, storable, shows, among⟩ := promised vars force
  exact ⟨seen, storable, shows, among, fun running => absurd running down⟩

theorem Life.Kept.reload_opened (kept : life.Kept) {store : Store} {rwIo roIo : LoadIo}
    (reload : life.reload event = some (store, rwIo, roIo)) :
    checkMtd store.devices = .success ∧ store.rwFlash = life.store.rwFlash := by
  rcases reload_cases reload with ⟨-, running, rfl⟩ | ⟨rwData, roData, -, rfl⟩
  · exact ⟨kept.opened running, rfl⟩
  · exact ⟨show checkMtd allOpen = .success by decide, rfl⟩

theorem CrashOnly.of_reload (crashes : CrashOnly life event) {store : Store} {rwIo roIo : LoadIo}
    (reload : life.reload event = some (store, rwIo, roIo)) : rwIo.ReadsFull ∧ rwIo.Crashes := by
  rcases reload_cases reload with ⟨rfl, -⟩ | ⟨rwData, roData, rfl, -⟩
  · exact crashes
  · exact crashes

theorem Life.Kept.reload (kept : life.Kept) (crashes : CrashOnly life event) :
    ReloadShows life event := by
  intro vars store rwIo roIo force reload
  obtain ⟨opened, flash⟩ := kept.reload_opened reload
  obtain ⟨reads, torn⟩ := crashes.of_reload reload
  obtain ⟨seen, storable, shows, among, -⟩ := kept.promised vars force
  obtain ⟨loaded, after, status, result, -, ended⟩ :=
    loadBuf_crash store.rwBuf opened reads torn storable (flash ▸ shows)
  refine ⟨⟨loaded, after, status, result, ?_⟩, fun next code whole => ?_⟩
  · rcases ended with lost | ⟨success, listed, -⟩
    · exact .inl lost
    · exact .inr ⟨success, listed ▸ among⟩
  · obtain ⟨half, first, -, lost, -⟩ := Store.loadvar_cases whole
    rw [result] at first
    cases first
    rcases ended with rfl | ⟨-, listed, -⟩
    · cases lost rfl
    · exact listed ▸ among

theorem Life.Kept.loaded (kept : life.Kept) {store after : Store} {rwIo roIo : LoadIo}
    {code : ErrorCode} (crashes : CrashOnly life event)
    (reload : life.reload event = some (store, rwIo, roIo))
    (result : store.loadvar rwIo roIo = .ok (after, .returned code)) :
    Life.Kept { life with
      store := after, running := true, force := life.force.map fun _ => after.rwBuf.list,
      interrupted := none } := by
  obtain ⟨opened, flash⟩ := kept.reload_opened reload
  obtain ⟨reads, torn⟩ := crashes.of_reload reload
  obtain ⟨half, first, devices, lost, -⟩ := Store.loadvar_cases result
  refine ⟨fun _ => devices ▸ opened, fun vars force => ?_⟩
  obtain ⟨earlier, before, shown⟩ := Option.map_eq_some_iff.mp force
  obtain ⟨seen, storable, shows, -⟩ := kept.promised earlier before
  obtain ⟨loaded, medium, status, loading, stands, ended⟩ :=
    loadBuf_crash store.rwBuf opened reads torn storable (flash ▸ shows)
  rw [loading] at first
  cases first
  rcases ended with rfl | ⟨-, listed, held⟩
  · cases lost rfl
  · have same : seen = vars := listed.symm.trans shown
    exact ⟨seen, storable, stands, .inl same, fun _ => ⟨same, held⟩⟩

theorem Life.Kept.reloadCut (kept : life.Kept) {store after : Store} {rwIo roIo : LoadIo}
    (crashes : CrashOnly life event) (reload : life.reload event = some (store, rwIo, roIo))
    (result : store.loadvar rwIo roIo = .ok (after, .lost)) :
    Life.Kept { life with store := after, running := false } := by
  obtain ⟨opened, flash⟩ := kept.reload_opened reload
  obtain ⟨reads, torn⟩ := crashes.of_reload reload
  obtain ⟨half, first, -⟩ := Store.loadvar_cases result
  refine .of_stopped rfl fun vars force => ?_
  obtain ⟨seen, storable, shows, among, -⟩ := kept.promised vars force
  obtain ⟨loaded, medium, status, loading, stands, -⟩ :=
    loadBuf_crash store.rwBuf opened reads torn storable (flash ▸ shows)
  rw [loading] at first
  cases first
  exact ⟨seen, storable, stands, among⟩

theorem Life.Kept.step (kept : life.Kept) (crashes : CrashOnly life event)
    (storable : SavesStorable life event) (step : LifeStep life event next) : next.Kept := by
  cases step with
  | @set name value running =>
      obtain ⟨rwBuf, same, flags⟩ := life.store.setvar_frame name value
      refine ⟨?_, ?_⟩
      · simpa only [same] using kept.opened
      · simpa only [same, flags] using kept.promised
  | crash =>
      refine .of_stopped rfl fun vars force => ?_
      obtain ⟨seen, fits, shows, among, -⟩ := kept.promised vars force
      exact ⟨seen, fits, shows, among⟩
  | loaded reload result => exact kept.loaded crashes reload result
  | reloadCut reload result => exact kept.reloadCut crashes reload result
  | @saved io store running result =>
      have opened := kept.opened running
      obtain ⟨devices, -, ⟨refused, -⟩ | ⟨-, both⟩ | ⟨lost, -⟩⟩ :=
        savevar_crash opened storable crashes result
      · cases refused
      · refine ⟨fun _ => devices ▸ opened, fun vars force => ?_⟩
        have standing : shown (copiesOf store.rwFlash.flash) = some (bodyOf life.store.rwBuf.list) := by
          simp [shown, both]
        have same : life.store.rwBuf.list = vars := Option.some.inj force
        refine ⟨life.store.rwBuf.list, storable, ?_, .inl same, fun _ => ⟨same, ?_⟩⟩
        · rw [seenBody, standing, Option.getD_some]
        · rw [Held, both, standing]
      · cases lost
  | @refused io store code running result failure =>
      have opened := kept.opened running
      obtain ⟨devices, flags, ⟨-, same⟩ | ⟨success, -⟩ | ⟨lost, -⟩⟩ :=
        savevar_crash opened storable crashes result
      · refine ⟨fun _ => devices ▸ opened, ?_⟩
        simpa only [same, flags] using kept.promised
      · cases success
        exact absurd rfl failure
      · cases lost
  | @cut io store running result =>
      have opened := kept.opened running
      obtain ⟨-, -, ⟨refused, -⟩ | ⟨success, -⟩ | ⟨-, mirroring⟩⟩ :=
        savevar_crash opened storable crashes result
      · cases refused
      · cases success
      · refine .of_stopped rfl fun vars force => ?_
        obtain ⟨seen, fits, shows, -, alive⟩ := kept.promised vars force
        obtain ⟨same, held⟩ := alive running
        rcases mirroring.shown_held held with old | new
        · exact ⟨seen, fits, by rw [← shows, seenBody, seenBody, old], .inl same⟩
        · exact ⟨life.store.rwBuf.list, storable, by rw [seenBody, new, Option.getD_some],
            .inr rfl⟩

end Life

/-- In every run whose only failures are losses of power, each reload after a
completed save shows exactly the variables in force, those of the last save
that completed or those a later reload showed, or exactly those of the save
that was cut since. -/
theorem reloads_show {start finish : Life} {trace : List (Life × LifeEvent)}
    (run : Run LifeStep start trace finish)
    (opened : start.running = true → checkMtd start.store.devices = .success)
    (unsaved : start.force = none) (crashes : StepsMeet CrashOnly trace)
    (storable : StepsMeet SavesStorable trace) : StepsMeet ReloadShows trace := by
  have initial : start.Kept := ⟨opened, fun vars force => by rw [unsaved] at force; cases force⟩
  have met : StepsMeet (fun life event => CrashOnly life event ∧ SavesStorable life event) trace :=
    fun entry member => ⟨crashes entry member, storable entry member⟩
  have kept := run.throughout initial
    (fun kept allowed step => kept.step allowed.1 allowed.2 step) met
  exact fun entry member => (kept.1 entry member).reload (crashes entry member)

section TwoCuts

def letter (value : Byte) (printable : value ≠ 0) : SysvarList where
  name := ⟨[0x61], by decide⟩
  value := ⟨[value], by simpa using printable.symm⟩
  name_fits := by decide

def calmLoad : LoadIo :=
  repairIo .done

def tornErase (side : Side) : FlashIo where
  erase := fun other => if other = side then .lost (.torn .erased) else .done
  write := fun _ => .done

/-- A process that has loaded and whose next save begins with the given partition. -/
structure Ready (life : Life) (vars : List SysvarList) (side : Side) : Prop where
  running : life.running = true
  opened : life.store.devices = allOpen
  roFlash : life.store.roFlash = blankMedium
  roList : life.store.roBuf.list = []
  list : life.store.rwBuf.list = vars
  first : firstSide life.store.rwBuf.failed = side

theorem storable_letter (value : Byte) (printable : value ≠ 0) (unmarked : value ≠ 0xff) :
    Storable [letter value printable] := by
  refine ⟨fun var member => ?_, show 35 ≤ totalLen by decide⟩
  rw [List.mem_singleton.mp member]
  exact ⟨by simp [letter], by simp [letter], by simpa [letter] using unmarked.symm⟩

theorem setVar_letter (buf : SysvarBuf) (value : Byte) (printable : value ≠ 0) :
    ∃ added : SysvarBuf, buf.setVar (letter value printable).name (letter value printable).value =
        (added, .success) ∧ added.list = buf.list ++ [letter value printable] ∧
      1 ≤ added.usedLen ∧ added.failed = buf.failed := by
  unfold SysvarBuf.setVar
  rw [dif_pos (letter value printable).name_fits]
  refine ⟨_, rfl, rfl, ?_, rfl⟩
  have room : 1 ≤ totalLen := by decide
  have size : (letter value printable).len = 35 := rfl
  simp only [sysvarLen, Nat.le_min]
  exact ⟨by simp only [SysvarList.len] at size ⊢; omega, room⟩

theorem setvar_letter {store : Store} (value : Byte) (printable : value ≠ 0)
    (opened : store.devices = allOpen) (roList : store.roBuf.list = [])
    (before : store.rwBuf.list = [] ∨ ∃ old fits, store.rwBuf.list = [letter old fits]) :
    ∃ rwBuf : SysvarBuf, (store.setvar (some (letter value printable).name)
        (some (letter value printable).value)).1 = { store with rwBuf := rwBuf } ∧
      rwBuf.list = [letter value printable] ∧ 1 ≤ rwBuf.usedLen ∧
        rwBuf.failed = store.rwBuf.failed := by
  have passing : checkMtd store.devices = .success := by
    rw [opened]
    decide
  have writable : (store.roBuf.findVar (letter value printable).name).isSome = false := by
    simp [SysvarBuf.findVar, roList]
  rw [Store.setvar, if_pos passing]
  simp only [writable, Bool.false_eq_true, if_false]
  rcases before with empty | ⟨old, fits, single⟩
  · obtain ⟨added, adding, list, used, flags⟩ := setVar_letter store.rwBuf value printable
    have absent : store.rwBuf.findVar (letter value printable).name = none := by
      simp [SysvarBuf.findVar, empty]
    rw [absent]
    simp only [Store.add, adding]
    exact ⟨added, rfl, by rw [list, empty]; rfl, used, flags⟩
  · have present : store.rwBuf.findVar (letter value printable).name = some 0 := by
      simp [SysvarBuf.findVar, single, SysvarList.named, letter]
    obtain ⟨removed, deleted, left, -, failed⟩ := deleteVar_head single
    obtain ⟨added, adding, list, used, flags⟩ := setVar_letter removed value printable
    rw [present]
    simp only [deleted, Store.add, adding]
    exact ⟨added, rfl, by rw [list, left]; rfl, used, flags.trans failed⟩

def CrashStep (life : Life) (event : LifeEvent) (next : Life) : Prop :=
  LifeStep life event next ∧ CrashOnly life event ∧ SavesStorable life event

variable {life : Life} {vars : List SysvarList} {side : Side}

theorem Ready.checkMtd (ready : Ready life vars side) :
    Sysvar.checkMtd life.store.devices = .success := by
  rw [ready.opened]
  decide

theorem ready_set (ready : Ready life vars side) (value : Byte) (printable : value ≠ 0)
    (before : vars = [] ∨ ∃ old fits, vars = [letter old fits]) : ∃ next : Life,
      CrashStep life (.set (some (letter value printable).name)
        (some (letter value printable).value)) next ∧
      Ready next [letter value printable] side ∧ 1 ≤ next.store.rwBuf.usedLen ∧
        next.store.rwFlash = life.store.rwFlash ∧ next.completed = life.completed ∧
          next.force = life.force := by
  obtain ⟨rwBuf, same, list, used, flags⟩ := setvar_letter value printable ready.opened ready.roList
    (ready.list ▸ before)
  have step : LifeStep life (.set (some (letter value printable).name)
      (some (letter value printable).value)) { life with store := { life.store with rwBuf } } :=
    same ▸ .set ready.running
  exact ⟨_, ⟨step, trivial, trivial⟩, ⟨ready.running, ready.opened, ready.roFlash, ready.roList,
    list, flags ▸ ready.first⟩, used, rfl, rfl, rfl⟩

theorem savevar_letter {value : Byte} {printable : value ≠ 0} (unmarked : value ≠ 0xff)
    (ready : Ready life [letter value printable] side)
    (used : 1 ≤ life.store.rwBuf.usedLen) (io : FlashIo) :
    Storable life.store.rwBuf.list ∧ ∃ saved : SysvarBuf,
      saved.list = [letter value printable] ∧ saved.failed = life.store.rwBuf.failed ∧
        saved.data.Passes ∧ saved.data.body = bodyOf [letter value printable] ∧
          life.store.savevar io =
            let result := saveSides io [side, side.other] saved.data life.store.rwFlash
            .ok ({ life.store with
              rwBuf := { saved with data := result.2.1 }, rwFlash := result.1 }, result.2.2) := by
  have storable : Storable life.store.rwBuf.list := by
    rw [ready.list]
    exact storable_letter value printable unmarked
  obtain ⟨saved, code, saving, succeeds, holds⟩ := saveVar_storable storable
  have short : ∀ var ∈ life.store.rwBuf.list, var.value.strlen ≤ life.store.rwBuf.usedLen := by
    intro var member
    rw [ready.list, List.mem_singleton] at member
    rw [member]
    exact used
  have success := succeeds short
  subst success
  obtain ⟨same, passes⟩ := saveVar_result saving
  have result := Store.savevar_of_saveVar io saving
  simp only [ready.first, dataSave, if_pos ready.checkMtd] at result
  exact ⟨storable, saved, by rw [same, ready.list], by rw [same], passes rfl,
    ready.list ▸ holds rfl, result⟩

theorem ready_save {value : Byte} {printable : value ≠ 0} (unmarked : value ≠ 0xff)
    (ready : Ready life [letter value printable] side)
    (used : 1 ≤ life.store.rwBuf.usedLen) : ∃ next : Life,
      CrashStep life (.save calmIo) next ∧ Ready next [letter value printable] side ∧
        next.completed = some [letter value printable] ∧
          next.force = some [letter value printable] := by
  obtain ⟨storable, saved, list, flags, passes, body, result⟩ :=
    savevar_letter unmarked ready used calmIo
  have repairs (each : Side) : calmIo.Repairs each := ⟨rfl, rfl⟩
  have returned : (saveSides calmIo [side, side.other] saved.data life.store.rwFlash).2.2 =
      .returned .success := by
    rw [saveSides_repaired (repairs _), saveSides_repaired (repairs _)]
    rfl
  dsimp only at result
  rw [returned] at result
  refine ⟨_, ⟨.saved ready.running result, fun _ => ⟨trivial, trivial⟩, storable⟩, ?_,
    congrArg some ready.list, congrArg some ready.list⟩
  exact ⟨rfl, ready.opened, ready.roFlash, ready.roList, list, flags ▸ ready.first⟩

theorem crashes_tornErase (torn : Side) : (tornErase torn).Crashes := by
  intro each
  refine ⟨?_, trivial⟩
  by_cases same : each = torn
  · simp [tornErase, same, Outcome.Crashes]
  · simp [tornErase, same, Outcome.Crashes]

theorem rewrite_tornErase (torn : Side) (data : Block) (medium : Medium) :
    rewrite (tornErase torn) torn data medium =
      (medium.perform .erase torn .erased, data, .lost) := by
  simp [rewrite, tornErase, Outcome.leaves]

structure CutSave (life next : Life) (vars : List SysvarList) : Prop where
  stopped : next.running = false
  roFlash : next.store.roFlash = blankMedium
  completed : next.completed = life.completed
  force : next.force = life.force
  interrupted : next.interrupted = some vars

theorem ready_torn_first {value : Byte} {printable : value ≠ 0} (unmarked : value ≠ 0xff)
    (ready : Ready life [letter value printable] side)
    (used : 1 ≤ life.store.rwBuf.usedLen) : ∃ next : Life,
      CrashStep life (.save (tornErase side)) next ∧ CutSave life next [letter value printable] ∧
        copiesOf next.store.rwFlash.flash =
          Function.update (copiesOf life.store.rwFlash.flash) side none := by
  obtain ⟨storable, saved, -, -, -, -, result⟩ :=
    savevar_letter unmarked ready used (tornErase side)
  have torn := rewrite_tornErase side saved.data life.store.rwFlash
  obtain ⟨flash, lost⟩ := saveSides_of_lost [side.other] (congrArg (·.2.2) torn)
  dsimp only at result
  rw [lost, flash, torn] at result
  refine ⟨_, ⟨.cut ready.running result, crashes_tornErase side, storable⟩,
    ⟨rfl, ready.roFlash, rfl, rfl, congrArg some ready.list⟩, ?_⟩
  rw [copiesOf_perform, content_erased]

theorem ready_torn_second {value : Byte} {printable : value ≠ 0} (unmarked : value ≠ 0xff)
    (ready : Ready life [letter value printable] side)
    (used : 1 ≤ life.store.rwBuf.usedLen) : ∃ next : Life,
      CrashStep life (.save (tornErase side.other)) next ∧
        CutSave life next [letter value printable] ∧
          copiesOf next.store.rwFlash.flash side = some (bodyOf [letter value printable]) ∧
            copiesOf next.store.rwFlash.flash side.other = none := by
  obtain ⟨storable, saved, -, -, passes, body, result⟩ :=
    savevar_letter unmarked ready used (tornErase side.other)
  have repairs : (tornErase side.other).Repairs side := ⟨by simp [tornErase], rfl⟩
  have torn := rewrite_tornErase side.other saved.data.setWc32
    (rewrite (tornErase side.other) side saved.data life.store.rwFlash).1
  obtain ⟨flash, lost⟩ := saveSides_of_lost [] (congrArg (·.2.2) torn)
  dsimp only at result
  rw [saveSides_repaired repairs, lost, flash, torn] at result
  refine ⟨_, ⟨.cut ready.running result, crashes_tornErase side.other, storable⟩,
    ⟨rfl, ready.roFlash, rfl, rfl, congrArg some ready.list⟩, ?_, ?_⟩
  · dsimp only
    rw [copiesOf_perform, Function.update_of_ne (Side.ne_other side),
      rewrite_done saved.data life.store.rwFlash repairs, copiesOf_perform, Function.update_self,
      content_setWc32 passes, body]
  · dsimp only
    rw [copiesOf_perform, Function.update_self, content_erased]

theorem ready_restart {seen : List SysvarList} (stopped : life.running = false)
    (roFlash : life.store.roFlash = blankMedium) (storable : Storable seen)
    (shows : seenBody life.store.rwFlash.flash = bodyOf seen) : ∃ next : Life,
      CrashStep life (.restart .erased .erased calmLoad calmLoad) next ∧
        Ready next seen (if (life.store.rwFlash.flash .one).Passes then .zero else .one) ∧
          seenBody next.store.rwFlash.flash = bodyOf seen ∧
            Held next.store.rwFlash.flash next.store.rwBuf.failed ∧
              next.completed = life.completed ∧
                next.force = life.force.map fun _ => seen := by
  have opened : checkMtd allOpen = .success := by decide
  have reads : calmLoad.ReadsFull := fun _ => ⟨rfl, rfl⟩
  have crashes : calmLoad.Crashes := fun _ => ⟨trivial, trivial⟩
  have uncut : calmLoad.Uncut := by simp [FlashIo.Uncut, calmLoad, repairIo]
  obtain ⟨loaded, after, status, half, stands, ended⟩ :=
    loadBuf_crash (.init .erased) opened reads crashes storable shows
  obtain ⟨read, medium, data, -⟩ :=
    dataLoad_uncut (.init .erased) life.store.rwFlash uncut opened
  have flag : (dataLoad allOpen calmLoad (.init .erased) life.store.rwFlash).1.failed .one =
      decide (¬calmLoad.PassesFirst life.store.rwFlash.flash .one) := failed_dataLoad _ _ opened .one
  rcases loadBuf_cases half with
    ⟨other, code, same, loads, rfl⟩ | ⟨code, same, failure, -⟩ | ⟨same, -⟩
  · rw [data] at same flag
    cases same
    obtain ⟨success, list, held⟩ := ended.resolve_left (by simp)
    cases success
    obtain ⟨roBuf, roHalf, roList, -⟩ := loadBuf_blank (.init .erased)
    have reload : life.reload (.restart .erased .erased calmLoad calmLoad) =
        some (.opened life.store.rwFlash blankMedium .erased .erased, calmLoad, calmLoad) := by
      simp [Life.reload, stopped, roFlash]
    have result : (Store.opened life.store.rwFlash blankMedium .erased .erased).loadvar calmLoad
        calmLoad = _ := Store.loadvar_of_halves half roHalf
    refine ⟨_, ⟨.loaded reload result, ⟨reads, crashes⟩, trivial⟩, ?_, stands, held, rfl,
      by rw [← list]⟩
    refine ⟨rfl, rfl, rfl, roList, list, ?_⟩
    rw [firstSide, failed_loadVar loads, flag]
    by_cases passes : (life.store.rwFlash.flash .one).Passes
    · simp [LoadIo.PassesFirst, passes, (reads .one).1]
    · simp [LoadIo.PassesFirst, passes]
  · rw [data] at same
    cases same
    exact absurd rfl failure
  · rw [data] at same
    cases same

def blankLife : Life where
  store := blankStore
  running := false
  completed := none
  force := none
  interrupted := none

def letterOne : SysvarList := letter 0x31 (by decide)

def letterTwo : SysvarList := letter 0x32 (by decide)

def letterThree : SysvarList := letter 0x33 (by decide)

/-- One save completes, the next is cut once the first partition is written,
the device restarts, and a third save is cut at once. -/
def twoCuts : List LifeEvent :=
  [.restart .erased .erased calmLoad calmLoad,
    .set (some letterOne.name) (some letterOne.value), .save calmIo,
    .set (some letterTwo.name) (some letterTwo.value), .save (tornErase .one),
    .restart .erased .erased calmLoad calmLoad,
    .set (some letterThree.name) (some letterThree.value), .save (tornErase .one)]

theorem two_cuts_run : ∃ (life finish : Life) (trace : List (Life × LifeEvent)),
    Run CrashStep blankLife trace life ∧ trace.map Prod.snd = twoCuts ∧
      CrashStep life (.restart .erased .erased calmLoad calmLoad) finish ∧
        life.completed = some [letterOne] ∧ life.force = some [letterTwo] ∧
          life.interrupted = some [letterThree] ∧ finish.store.rwBuf.list = [letterTwo] := by
  have passes : blankImage.Passes := Block.passes_setCrc32 _
  have blank : seenBody blankLife.store.rwFlash.flash = bodyOf [] := by
    have content : blankImage.content = some (bodyOf []) := by
      rw [content_of_passes passes, blankImage, Block.body_setCrc32, Block.body_erased, bodyOf_nil]
    simp [seenBody, shown, copiesOf, blankLife, blankStore, Store.opened, blankMedium, content]
  obtain ⟨booted, boot, ready, -⟩ := ready_restart rfl rfl storable_nil blank
  rw [if_pos (show (blankLife.store.rwFlash.flash .one).Passes from passes)] at ready
  obtain ⟨first, setFirst, ready, used, -⟩ := ready_set ready 0x31 (by decide) (.inl rfl)
  obtain ⟨saved, save, ready, completed, force⟩ := ready_save (by decide) ready used
  obtain ⟨second, setSecond, ready, used, -, sameSecond, forceSecond⟩ :=
    ready_set ready 0x32 (by decide) (.inr ⟨_, _, rfl⟩)
  obtain ⟨cut, cutSecond, off, written, damaged⟩ := ready_torn_second (by decide) ready used
  have shows : seenBody cut.store.rwFlash.flash = bodyOf [letterTwo] := by
    rw [seenBody, shown, show copiesOf cut.store.rwFlash.flash .one = none from damaged, written]
    rfl
  have storable : Storable [letterTwo] := storable_letter 0x32 (by decide) (by decide)
  obtain ⟨rebooted, reboot, ready, shows, held, sameBoot, forceBoot⟩ :=
    ready_restart off.stopped off.roFlash storable shows
  have fails : ¬(cut.store.rwFlash.flash .one).Passes := by
    intro intact
    have none : (cut.store.rwFlash.flash .one).content = none := damaged
    rw [content_of_passes intact] at none
    cases none
  rw [if_neg fails] at ready
  rw [Held, ready.first] at held
  obtain ⟨third, setThird, ready, used, flash, sameThird, forceThird⟩ :=
    ready_set ready 0x33 (by decide) (.inr ⟨_, _, rfl⟩)
  obtain ⟨again, cutThird, offAgain, torn⟩ := ready_torn_first (by decide) ready used
  have showsAgain : seenBody again.store.rwFlash.flash = bodyOf [letterTwo] := by
    rw [← shows, seenBody, seenBody, ← held, torn, flash]
    simp [shown, Side.other]
  obtain ⟨finish, restart, readyAgain, -⟩ :=
    ready_restart offAgain.stopped offAgain.roFlash storable showsAgain
  have run := (((((((Run.nil.snoc boot).snoc setFirst).snoc save).snoc setSecond).snoc
    cutSecond).snoc reboot).snoc setThird).snoc cutThird
  refine ⟨again, finish, _, run, rfl, restart, ?_, ?_, offAgain.interrupted, readyAgain.list⟩
  · rw [offAgain.completed, sameThird, sameBoot, off.completed, sameSecond, completed]
    rfl
  · rw [offAgain.force, forceThird, forceBoot, off.force, forceSecond, force]
    rfl

/-- A completed save and a later cut one are not all that a reload can show:
here it shows the variables of a save that was cut before, which an earlier
reload had shown. -/
theorem reload_shows_earlier_cut : ∃ (life finish : Life) (trace : List (Life × LifeEvent)),
    Run LifeStep blankLife trace life ∧ trace.map Prod.snd = twoCuts ∧
      StepsMeet CrashOnly trace ∧ StepsMeet SavesStorable trace ∧
        LifeStep life (.restart .erased .erased calmLoad calmLoad) finish ∧
          life.completed = some [letterOne] ∧ life.interrupted = some [letterThree] ∧
            finish.store.rwBuf.list = [letterTwo] ∧ [letterTwo] ≠ [letterOne] ∧
              [letterTwo] ≠ [letterThree] := by
  obtain ⟨life, finish, trace, run, events, restart, completed, -, interrupted, list⟩ :=
    two_cuts_run
  obtain ⟨steps, met⟩ := run.split_met
  exact ⟨life, finish, trace, steps, events, fun entry member => (met entry member).1,
    fun entry member => (met entry member).2, restart.1, completed, interrupted, list, by decide,
    by decide⟩

theorem reloads_show_two_cuts : ∃ (life finish : Life) (trace : List (Life × LifeEvent)),
    Run LifeStep blankLife (trace ++ [(life, .restart .erased .erased calmLoad calmLoad)]) finish ∧
      trace.map Prod.snd = twoCuts ∧ life.force = some [letterTwo] ∧
        ReloadShows life (.restart .erased .erased calmLoad calmLoad) := by
  obtain ⟨life, finish, trace, run, events, restart, -, force, -⟩ := two_cuts_run
  obtain ⟨steps, met⟩ := (run.snoc restart).split_met
  refine ⟨life, finish, trace, steps, events, force, ?_⟩
  have shows := reloads_show steps nofun rfl (fun entry member => (met entry member).1)
    fun entry member => (met entry member).2
  exact shows _ (List.mem_append_right _ (List.mem_singleton_self _))

end TwoCuts

end Gfiber.Sysvar
