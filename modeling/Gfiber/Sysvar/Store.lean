import Gfiber.Sysvar.CodecProperties
import Gfiber.Sysvar.Flash

/-! The calls of the library over its two buffers and four partitions:
`loadvar`, `savevar` and `setvar`. -/

set_option autoImplicit false

namespace Gfiber.Sysvar

open Lib

structure Store where
  devices : Devices
  rwBuf : SysvarBuf
  roBuf : SysvarBuf
  rwFlash : Medium
  roFlash : Medium

namespace Store

/-- What `open_mtd` sets up before it loads: every device is open and the
buffers are new. -/
def opened (rwFlash roFlash : Medium) (rwData roData : Block) : Store where
  devices := fun _ => true
  rwBuf := .init rwData
  roBuf := .init roData
  rwFlash := rwFlash
  roFlash := roFlash

end Store

/-- `data_load` and `load_var` of one buffer. -/
def loadBuf (devices : Devices) (io : LoadIo) (buf : SysvarBuf) (medium : Medium) :
    Except Fault (SysvarBuf × Medium × Status) :=
  match dataLoad devices io buf medium with
  | (buf, medium, .returned .success) => do
      let (buf, code) ← buf.loadVar
      return (buf, medium, .returned code)
  | (buf, medium, .returned _) => .ok (buf, medium, .returned .loadErr)
  | (buf, medium, .lost) => .ok (buf, medium, .lost)

def firstSide (failed : Side → Bool) : Side :=
  if failed .one then .one else .zero

namespace Store

def loadvar (store : Store) (rwIo roIo : LoadIo) : Except Fault (Store × Status) := do
  let (rwBuf, rwFlash, status) ← loadBuf store.devices rwIo store.rwBuf store.rwFlash
  let store := { store with rwBuf := rwBuf, rwFlash := rwFlash }
  match status with
  | .lost => .ok (store, .lost)
  | .returned .success => do
      let (roBuf, roFlash, status) ← loadBuf store.devices roIo store.roBuf store.roFlash
      return ({ store with roBuf := roBuf, roFlash := roFlash }, status)
  | .returned _ => .ok (store, .returned .loadErr)

def savevar (store : Store) (io : FlashIo) : Except Fault (Store × Status) := do
  let (rwBuf, code) ← store.rwBuf.saveVar
  if code = .success then
    let first := firstSide rwBuf.failed
    let (rwFlash, data, status) :=
      dataSave store.devices io [first, first.other] rwBuf.data store.rwFlash
    .ok ({ store with rwBuf := { rwBuf with data := data }, rwFlash := rwFlash }, status)
  else .ok ({ store with rwBuf := rwBuf }, .returned .saveErr)

def add (store : Store) (name : CString) (value : Option CString) (absent : ErrorCode) :
    Store × ErrorCode :=
  match value with
  | some value =>
      let (rwBuf, code) := store.rwBuf.setVar name value
      ({ store with rwBuf := rwBuf }, code)
  | none => (store, absent)

def setvar (store : Store) (name value : Option CString) : Store × ErrorCode :=
  if checkMtd store.devices = .success then
    match name with
    | some name =>
        if (store.roBuf.findVar name).isSome then (store, .readonlyErr)
        else
          match store.rwBuf.findVar name with
          | some index =>
              match store.rwBuf.deleteVar index with
              | (rwBuf, .success) => { store with rwBuf := rwBuf }.add name value .success
              | (rwBuf, _) => ({ store with rwBuf := rwBuf }, .deleteErr)
          | none => store.add name value .existedErr
    | none =>
        let (rwBuf, code) := store.rwBuf.clearVar
        ({ store with rwBuf := rwBuf }, code)
  else (store, .openErr)

end Store

section Frame

@[simp] theorem failed_setVar (buf : SysvarBuf) (name value : CString) :
    (buf.setVar name value).1.failed = buf.failed := by
  unfold SysvarBuf.setVar
  split <;> rfl

@[simp] theorem failed_deleteVar (buf : SysvarBuf) (index : Nat) :
    (buf.deleteVar index).1.failed = buf.failed := by
  unfold SysvarBuf.deleteVar
  split <;> rfl

@[simp] theorem failed_clearVar (buf : SysvarBuf) : buf.clearVar.1.failed = buf.failed := by
  obtain ⟨cleared, loop, -, -, failed⟩ := clearLoop_success buf.list buf rfl
  rw [SysvarBuf.clearVar, loop]
  exact failed

theorem failed_loadLoop {data : Block} {i : Nat} {buf loaded : SysvarBuf} {code : ErrorCode}
    (result : SysvarBuf.loadLoop data i buf = .ok (loaded, code)) :
    loaded.failed = buf.failed := by
  have same {last : SysvarBuf} {ended : ErrorCode}
      (returned : (.ok (last, ended) : Except Fault (SysvarBuf × ErrorCode)) = .ok (loaded, code)) :
      loaded = last := by
    cases returned
    rfl
  induction remaining : totalLen - i using Nat.strong_induction_on generalizing i buf with
  | _ remaining ih =>
      rw [SysvarBuf.loadLoop] at result
      split at result
      case isFalse => rw [same result]
      case isTrue inside =>
        obtain ⟨mark, -, result⟩ := bind_eq_ok result
        split at result
        case isTrue => rw [same result]
        case isFalse =>
          obtain ⟨name, -, result⟩ := bind_eq_ok result
          obtain ⟨high, -, result⟩ := bind_eq_ok result
          obtain ⟨low, -, result⟩ := bind_eq_ok result
          dsimp only at result
          split at result
          case isTrue => rw [same result]
          case isFalse =>
            obtain ⟨value, -, result⟩ := bind_eq_ok result
            have kept := failed_setVar buf name value
            split at result
            case h_1 added =>
              rw [added] at kept
              exact (ih _ (by simp only [nameSize]; omega) result rfl).trans kept
            case h_2 =>
              rw [Except.ok.inj result] at kept
              exact kept

theorem failed_loadVar {buf loaded : SysvarBuf} {code : ErrorCode}
    (result : buf.loadVar = .ok (loaded, code)) : loaded.failed = buf.failed := by
  obtain ⟨cleared, loop, -, -, failed⟩ := clearLoop_success buf.list buf rfl
  rw [SysvarBuf.loadVar, SysvarBuf.clearVar, loop] at result
  exact (failed_loadLoop result).trans failed

theorem loadBuf_cases {devices : Devices} {io : LoadIo} {buf loaded : SysvarBuf}
    {medium after : Medium} {status : Status}
    (result : loadBuf devices io buf medium = .ok (loaded, after, status)) :
    (∃ (read : SysvarBuf) (code : ErrorCode),
      dataLoad devices io buf medium = (read, after, .returned .success) ∧
        read.loadVar = .ok (loaded, code) ∧ status = .returned code) ∨
    (∃ code : ErrorCode, dataLoad devices io buf medium = (loaded, after, .returned code) ∧
      code ≠ .success ∧ status = .returned .loadErr) ∨
    dataLoad devices io buf medium = (loaded, after, .lost) ∧ status = .lost := by
  unfold loadBuf at result
  split at result
  case h_1 read flash loading =>
    obtain ⟨⟨last, code⟩, loads, rest⟩ := bind_eq_ok result
    cases rest
    exact .inl ⟨read, code, loading, loads, rfl⟩
  case h_2 read flash code failure loading =>
    cases result
    exact .inr (.inl ⟨code, loading, failure, rfl⟩)
  case h_3 read flash loading =>
    cases result
    exact .inr (.inr ⟨loading, rfl⟩)

theorem loadBuf_storable {devices : Devices} {io : LoadIo} {buf read : SysvarBuf}
    {medium after : Medium} {vars : List SysvarList} (storable : Storable vars)
    (loading : dataLoad devices io buf medium = (read, after, .returned .success))
    (holds : read.data.body = bodyOf vars) : ∃ loaded : SysvarBuf,
      loadBuf devices io buf medium = .ok (loaded, after, .returned .success) ∧
        loaded.list = vars ∧ loaded.usedLen = recordsLen vars ∧ loaded.failed = read.failed := by
  obtain ⟨loaded, loads, listed, counted, -, flags⟩ := loadVar_bodyOf storable holds
  refine ⟨loaded, ?_, listed, counted, flags⟩
  rw [loadBuf, loading]
  simp only [loads]
  rfl

namespace Store

theorem loadvar_cases {store next : Store} {rwIo roIo : LoadIo} {status : Status}
    (result : store.loadvar rwIo roIo = .ok (next, status)) : ∃ half : Status,
      loadBuf store.devices rwIo store.rwBuf store.rwFlash =
          .ok (next.rwBuf, next.rwFlash, half) ∧
        next.devices = store.devices ∧ (half = .lost → status = .lost) ∧
          (half ≠ .returned .success → status ≠ .returned .success) := by
  obtain ⟨⟨rwBuf, rwFlash, half⟩, loading, rest⟩ := bind_eq_ok result
  dsimp only at rest
  split at rest
  case h_1 =>
    cases rest
    exact ⟨.lost, loading, rfl, fun _ => rfl, nofun⟩
  case h_2 =>
    obtain ⟨⟨roBuf, roFlash, ended⟩, -, rest⟩ := bind_eq_ok rest
    cases rest
    exact ⟨.returned .success, loading, rfl, nofun, fun other => absurd rfl other⟩
  case h_3 code failure =>
    cases rest
    exact ⟨.returned code, loading, rfl, nofun, nofun⟩

theorem add_frame (store : Store) (name : CString) (value : Option CString) (absent : ErrorCode) :
    ∃ rwBuf : SysvarBuf, (store.add name value absent).1 = { store with rwBuf := rwBuf } ∧
      rwBuf.failed = store.rwBuf.failed := by
  cases value with
  | none => exact ⟨store.rwBuf, rfl, rfl⟩
  | some value => exact ⟨_, rfl, failed_setVar store.rwBuf name value⟩

theorem setvar_frame (store : Store) (name value : Option CString) :
    ∃ rwBuf : SysvarBuf, (store.setvar name value).1 = { store with rwBuf := rwBuf } ∧
      rwBuf.failed = store.rwBuf.failed := by
  unfold setvar
  split
  case isFalse => exact ⟨store.rwBuf, rfl, rfl⟩
  case isTrue =>
    cases name with
    | none => exact ⟨_, rfl, failed_clearVar store.rwBuf⟩
    | some name =>
        dsimp only
        split
        case isTrue => exact ⟨store.rwBuf, rfl, rfl⟩
        case isFalse =>
          cases store.rwBuf.findVar name with
          | none => exact add_frame store name value _
          | some index =>
              have kept := failed_deleteVar store.rwBuf index
              dsimp only
              split
              case h_1 deleted =>
                rw [deleted] at kept
                obtain ⟨added, same, flags⟩ := add_frame _ name value _
                exact ⟨added, same, flags.trans kept⟩
              case h_2 deleted =>
                rw [deleted] at kept
                exact ⟨_, rfl, kept⟩

theorem savevar_cases {store next : Store} {io : FlashIo} {status : Status}
    (result : store.savevar io = .ok (next, status)) :
    (∃ (saved : SysvarBuf) (code : ErrorCode), store.rwBuf.saveVar = .ok (saved, code) ∧
      code ≠ .success ∧ next = { store with rwBuf := saved } ∧ status = .returned .saveErr) ∨
    ∃ saved : SysvarBuf, store.rwBuf.saveVar = .ok (saved, .success) ∧
      ∃ (medium : Medium) (data : Block), dataSave store.devices io
          [firstSide store.rwBuf.failed, (firstSide store.rwBuf.failed).other] saved.data
            store.rwFlash = (medium, data, status) ∧
        next = { store with rwBuf := { saved with data := data }, rwFlash := medium } := by
  obtain ⟨⟨saved, code⟩, saving, rest⟩ := bind_eq_ok result
  have same := (saveVar_result saving).1
  dsimp only at rest
  split at rest
  case isTrue success =>
    subst success
    simp only [Except.ok.injEq, Prod.mk.injEq] at rest
    refine .inr ⟨saved, saving, _, _, ?_, rest.1.symm⟩
    rw [← rest.2, same]
  case isFalse failure =>
    simp only [Except.ok.injEq, Prod.mk.injEq] at rest
    exact .inl ⟨saved, code, saving, failure, rest.1.symm, rest.2.symm⟩

theorem savevar_of_saveVar {store : Store} {saved : SysvarBuf} (io : FlashIo)
    (saving : store.rwBuf.saveVar = .ok (saved, .success)) :
    store.savevar io =
      let first := firstSide store.rwBuf.failed
      let result := dataSave store.devices io [first, first.other] saved.data store.rwFlash
      .ok ({ store with rwBuf := { saved with data := result.2.1 }, rwFlash := result.1 },
        result.2.2) := by
  have flags : saved.failed = store.rwBuf.failed := by rw [(saveVar_result saving).1]
  rw [savevar, saving, ← flags]
  rfl

theorem loadvar_of_halves {store : Store} {rwIo roIo : LoadIo} {rwBuf roBuf : SysvarBuf}
    {rwFlash roFlash : Medium} {status : Status}
    (rwHalf : loadBuf store.devices rwIo store.rwBuf store.rwFlash =
      .ok (rwBuf, rwFlash, .returned .success))
    (roHalf : loadBuf store.devices roIo store.roBuf store.roFlash =
      .ok (roBuf, roFlash, status)) :
    store.loadvar rwIo roIo = .ok ({ store with
      rwBuf := rwBuf, rwFlash := rwFlash, roBuf := roBuf, roFlash := roFlash }, status) := by
  rw [loadvar, rwHalf]
  simp only [bind, Except.bind]
  rw [roHalf]
  rfl

end Store

end Frame

end Gfiber.Sysvar
