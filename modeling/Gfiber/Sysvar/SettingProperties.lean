import Gfiber.Sysvar.AccountingProperties

/-! What `setvar` calls do to the variables in memory: a finite map from names to values. -/

set_option autoImplicit false

namespace Gfiber.Sysvar

open Lib

section Values

/-- The variables as a map. -/
abbrev Values := CString → Option CString

/-- The arguments of a call of `setvar`. -/
structure Call where
  name : Option CString
  value : Option CString

/-- The value of the variable that `find_var` gives. -/
def SysvarBuf.lookup (buf : SysvarBuf) (name : CString) : Option CString :=
  (buf.findVar name).bind fun index => (buf.list[index]?).map SysvarList.value

/-- What a call that succeeds is for: a variable gets a value or is deleted, or all are deleted. -/
def Values.called (values : Values) (call : Call) : Values :=
  match call.name with
  | none => fun _ => none
  | some name => Function.update values name call.value

theorem called_some {name other : CString} {value : Option CString} (values : Values) :
    values.called ⟨some name, value⟩ other = if other = name then value else values other :=
  Function.update_apply values name value other

def Store.called (store : Store) (call : Call) : Store × ErrorCode :=
  store.setvar call.name call.value

inductive SetStep : Store → Call → Store → Prop where
  | call {store : Store} {call : Call} : SetStep store call (store.called call).1

/-- The values that the successful calls of a run leave. -/
def recorded (values : Values) (trace : List (Store × Call)) : Values :=
  trace.foldl (fun values entry =>
    if (entry.1.called entry.2).2 = .success then values.called entry.2 else values) values

end Values

section Lookups

variable {vars : List SysvarList} {name other : CString}

theorem lookup_eq (buf : SysvarBuf) (short : name.strlen ≤ nameSize) :
    buf.lookup name = (buf.list.map SysvarList.entry).lookup name := by
  have found : buf.lookup name = (buf.list.find? (·.named name)).map SysvarList.value := by
    rw [SysvarBuf.lookup, SysvarBuf.findVar, List.find?_eq_bind_findIdx?_getElem?, Option.map_bind]
    rfl
  rw [found]
  induction buf.list with
  | nil => rfl
  | cons var rest ih =>
      rw [List.map_cons, SysvarList.entry, List.lookup_cons]
      by_cases same : var.name = name
      · rw [List.find?_cons, (named_iff short).mpr same, same, beq_self_eq_true]
        rfl
      · have other : (name == var.name) = false := beq_false_of_ne (Ne.symm same)
        have passed : var.named name = false := Bool.eq_false_iff.mpr (mt (named_iff short).mp same)
        rw [List.find?_cons, passed, other]
        exact ih

theorem lookup_filter (entries : List (CString × CString)) (name other : CString) :
    (entries.filter (·.1 ≠ name)).lookup other =
      if other = name then none else entries.lookup other := by
  induction entries with
  | nil =>
      rw [List.filter_nil, List.lookup_nil, ite_self]
  | cons entry rest ih =>
      by_cases removed : entry.1 = name
      · rw [List.filter_cons_of_neg (by simp [removed]), ih, List.lookup_cons, removed]
        by_cases asked : other = name
        · rw [if_pos asked, if_pos asked]
        · rw [if_neg asked, if_neg asked, beq_false_of_ne asked]
      · rw [List.filter_cons_of_pos (by simp [removed]), List.lookup_cons, List.lookup_cons, ih]
        by_cases asked : other = entry.1
        · rw [asked, beq_self_eq_true]
          exact (if_neg removed).symm
        · rw [beq_false_of_ne asked]

end Lookups

section Simulation

variable {store next start finish : Store} {call : Call} {trace : List (Store × Call)}

def Store.Distinct (store : Store) : Prop :=
  (store.rwBuf.list.map SysvarList.name).Nodup

/-- The names that are given fit their field. -/
def Call.Named (call : Call) : Prop :=
  ∀ name, call.name = some name → name.strlen ≤ nameSize

theorem called_roBuf (store : Store) (call : Call) :
    (store.called call).1.roBuf = store.roBuf := by
  obtain ⟨rwBuf, frame, _⟩ := store.setvar_frame call.name call.value
  rw [Store.called, frame]

theorem called_readonly (store : Store) (call : Call) {name : CString}
    (named : call.name = some name) (readonly : (store.roBuf.findVar name).isSome) :
    (store.called call).1 = store ∧ (store.called call).2 ≠ .success := by
  rw [Store.called, named, Store.setvar]
  simp only [readonly, if_true]
  split
  case isTrue => exact ⟨rfl, fun same => by cases same⟩
  case isFalse => exact ⟨rfl, fun same => by cases same⟩

theorem names_eq (vars : List SysvarList) :
    (vars.map SysvarList.entry).map Prod.fst = vars.map SysvarList.name := by
  rw [List.map_map]
  rfl

/-- The variables other than one are the values without its name. -/
theorem lookup_without {name other : CString} (short : name.strlen ≤ nameSize)
    (asked : other.strlen ≤ nameSize) (distinct : store.Distinct) {left : SysvarBuf}
    (list : left.list = store.rwBuf.without name) :
    left.lookup other = if other = name then none else store.rwBuf.lookup other := by
  have apart : ((store.rwBuf.list.map SysvarList.entry).map Prod.fst).Nodup :=
    (names_eq _).symm ▸ distinct
  rw [lookup_eq left asked, lookup_eq store.rwBuf asked, list, SysvarBuf.without,
    entries_eraseP short apart, lookup_filter]

theorem distinct_without {name : CString} (short : name.strlen ≤ nameSize)
    (distinct : store.Distinct) :
    ((store.rwBuf.without name).map SysvarList.name).Nodup ∧
      name ∉ (store.rwBuf.without name).map SysvarList.name := by
  have apart : ((store.rwBuf.list.map SysvarList.entry).map Prod.fst).Nodup :=
    (names_eq _).symm ▸ distinct
  constructor
  · exact distinct.sublist (List.eraseP_sublist.map SysvarList.name)
  · rw [← names_eq, SysvarBuf.without, entries_eraseP short apart]
    intro member
    obtain ⟨entry, kept, same⟩ := List.mem_map.mp member
    exact absurd same (of_decide_eq_true (List.mem_filter.mp kept).2)

/-- The values before the call and what it did to them. -/
def Followed (store : Store) (call : Call) (outcome : Store × ErrorCode) : Prop :=
  outcome.1.Distinct ∧ ∀ other, other.strlen ≤ nameSize → outcome.1.rwBuf.lookup other =
    (if outcome.2 = .success then Values.called store.rwBuf.lookup call
      else store.rwBuf.lookup) other

theorem followed_same (distinct : store.Distinct) {code : ErrorCode} (failure : code ≠ .success) :
    Followed store call (store, code) := by
  refine ⟨distinct, fun other _ => ?_⟩
  rw [if_neg failure]

theorem followed_clear {value : Option CString} (opened : checkMtd store.devices = .success) :
    Followed store ⟨none, value⟩ (store.setvar none value) := by
  obtain ⟨cleared, clearing, empty, -⟩ := clearLoop_success store.rwBuf.list store.rwBuf rfl
  rw [Store.setvar, if_pos opened, SysvarBuf.clearVar, clearing]
  constructor
  · rw [Store.Distinct, empty]
    exact List.nodup_nil
  · intro other asked
    rw [lookup_eq _ asked, empty]
    rfl

section Adding

variable {name : CString} {left : SysvarBuf} (short : name.strlen ≤ nameSize)
  (distinct : store.Distinct) (list : left.list = store.rwBuf.without name)

include short distinct list

theorem followed_delete : Followed store ⟨some name, none⟩
    ({ store with rwBuf := left }.add name none
      (if (store.rwBuf.findVar name).isSome then .success else .existedErr)) := by
  constructor
  · rw [Store.Distinct, Store.add, list]
    exact (distinct_without short distinct).1
  · intro other asked
    have kept := lookup_without short asked distinct list
    cases found : store.rwBuf.findVar name with
    | none =>
        rw [without_of_missing found] at list
        rw [Store.add, lookup_eq _ asked, list, ← lookup_eq _ asked]
        rfl
    | some index =>
        rw [Store.add, kept]
        exact (called_some _).symm

theorem followed_add (text : CString) (absent : ErrorCode) : Followed store ⟨some name, some text⟩
    ({ store with rwBuf := left }.add name (some text) absent) := by
  obtain ⟨apart, fresh⟩ := distinct_without short distinct
  obtain ⟨added, adding, whole, -⟩ := setVar_short left text short
  rw [list] at whole
  simp only [Store.add, adding]
  constructor
  · rw [Store.Distinct, whole, List.map_append]
    refine List.nodup_append.mpr ⟨apart, List.nodup_singleton _, fun first old second new equal => ?_⟩
    rw [equal, List.mem_singleton.mp new] at old
    exact fresh old
  · intro other asked
    have kept := lookup_without short asked distinct list
    rw [lookup_eq _ asked, list] at kept
    rw [lookup_eq _ asked, whole, List.map_append, List.lookup_append, kept, if_pos rfl]
    rw [called_some]
    by_cases same : other = name
    · rw [if_pos same, if_pos same, Option.none_or, same]
      simp [SysvarList.entry]
    · rw [if_neg same, if_neg same]
      simp [SysvarList.entry, List.lookup_cons, beq_false_of_ne same]

end Adding

theorem followed_called (distinct : store.Distinct) (named : call.Named) :
    Followed store call (store.called call) := by
  by_cases opened : checkMtd store.devices = .success
  · obtain ⟨name, value⟩ := call
    cases name with
    | none => exact followed_clear opened
    | some name =>
        have short := named name rfl
        cases writable : store.roBuf.findVar name with
        | some index =>
            obtain ⟨same, failure⟩ := called_readonly store ⟨some name, value⟩ rfl
              (Option.isSome_of_eq_some writable)
            have whole : store.called ⟨some name, value⟩ =
                (store, (store.called ⟨some name, value⟩).2) := Prod.ext same rfl
            rw [whole]
            exact followed_same distinct failure
        | none =>
            obtain ⟨left, list, -, result⟩ := setvar_named value opened writable
            rw [Store.called, result]
            cases value with
            | none => exact followed_delete short distinct list
            | some text => exact followed_add short distinct list text _
  · have same : store.called call = (store, .openErr) := if_neg opened
    rw [same]
    exact followed_same distinct (by decide)

/-- The calls that the library does not refuse: the devices are open, the name
is not read-only and a delete names a variable. A clear is never refused. -/
def Store.Allows (store : Store) (call : Call) : Prop :=
  checkMtd store.devices = .success ∧ ∀ name, call.name = some name →
    store.roBuf.findVar name = none ∧
      (call.value = none → (store.rwBuf.findVar name).isSome)

theorem called_success_iff (named : call.Named) :
    (store.called call).2 = .success ↔ store.Allows call := by
  by_cases opened : checkMtd store.devices = .success
  · obtain ⟨name, value⟩ := call
    cases name with
    | none =>
        obtain ⟨cleared, clearing, -⟩ := clearLoop_success store.rwBuf.list store.rwBuf rfl
        have code : (store.called ⟨none, value⟩).2 = .success := by
          rw [Store.called, Store.setvar, if_pos opened, SysvarBuf.clearVar, clearing]
        exact iff_of_true code ⟨opened, fun name given => by cases given⟩
    | some name =>
        cases writable : store.roBuf.findVar name with
        | some index =>
            have readonly := Option.isSome_of_eq_some writable
            refine iff_of_false (called_readonly store ⟨some name, value⟩ rfl readonly).2 ?_
            intro allows
            rw [(allows.2 name rfl).1] at writable
            cases writable
        | none =>
            obtain ⟨left, -, -, result⟩ := setvar_named value opened writable
            rw [Store.called, result]
            cases value with
            | some text =>
                obtain ⟨added, adding, -⟩ := setVar_short left text (named name rfl)
                simp only [Store.add, adding, true_iff]
                refine ⟨opened, fun given same => ?_⟩
                cases same
                exact ⟨writable, fun absent => by cases absent⟩
            | none =>
                by_cases found : (store.rwBuf.findVar name).isSome
                · simp only [Store.add, if_pos found, true_iff]
                  refine ⟨opened, fun given same => ?_⟩
                  cases same
                  exact ⟨writable, fun _ => found⟩
                · simp only [Store.add, if_neg found]
                  exact iff_of_false (by decide) fun allows => found ((allows.2 name rfl).2 rfl)
  · have same : store.called call = (store, .openErr) := if_neg opened
    rw [same]
    exact iff_of_false (fun code => by cases code) fun allows => opened allows.1

/-- The variables in memory are a finite map under any run of calls: the
read-only ones stay, a call succeeds exactly when it is allowed, and each other
name has the value of its last successful set that no delete or clear followed. -/
theorem simulates_map (run : Run SetStep start trace finish) (distinct : start.Distinct)
    (named : ∀ entry ∈ trace, entry.2.Named) :
    finish.roBuf = start.roBuf ∧ finish.Distinct ∧
      (∀ entry ∈ trace, (entry.1.called entry.2).2 = .success ↔ entry.1.Allows entry.2) ∧
      (∀ entry ∈ trace, ∀ name, entry.2.name = some name →
        (start.roBuf.findVar name).isSome → (entry.1.called entry.2).1 = entry.1) ∧
      ∀ name, name.strlen ≤ nameSize →
        finish.rwBuf.lookup name = recorded start.rwBuf.lookup trace name := by
  induction run with
  | nil => exact ⟨rfl, distinct, by simp, by simp, fun _ _ => rfl⟩
  | @snoc middle next call trace run step ih =>
      obtain ⟨same, apart, -, unchanged, values⟩ := ih fun entry member =>
        named entry (List.mem_append_left _ member)
      obtain ⟨kept, followed⟩ := followed_called apart (named (middle, call) (by simp))
      cases step
      refine ⟨(called_roBuf middle call).trans same, kept,
        fun entry member => called_success_iff (named entry member),
        fun entry member name given found => ?_, fun name short => ?_⟩
      · rcases List.mem_append.mp member with earlier | last
        · exact unchanged entry earlier name given found
        · cases List.mem_singleton.mp last
          exact (called_readonly middle call given (same.symm ▸ found)).1
      · rw [followed name short, recorded, List.foldl_append]
        change _ = (if _ then Values.called (recorded _ _) call else recorded _ _) name
        split
        · obtain ⟨given, value⟩ := call
          cases given with
          | none => rfl
          | some given => rw [called_some, called_some, values name short]
        · exact values name short

def letters (count : Nat) : CString where
  bytes := List.replicate count 0x61
  terminated := fun member => absurd (List.eq_of_mem_replicate member) (by decide)

def setLetters (name value : Nat) : Call :=
  ⟨some (letters name), some (letters value)⟩

/-- A store with one read-only variable, and calls that set, delete and clear:
the fourth is refused because its name is read-only, the sixth because its name
is no variable. -/
def lockedStore : Store :=
  { blankStore with roBuf := (blankStore.roBuf.setVar (letters 2) (letters 7)).1 }

def mixedCalls : List Call :=
  [setLetters 5 5, ⟨none, none⟩, setLetters 32 1, setLetters 2 3, setLetters 1 1,
    ⟨some (letters 5), none⟩, setLetters 32 2, ⟨some (letters 1), none⟩]

theorem simulates_map_full : ∃ (trace : List (Store × Call)) (finish : Store),
    Run SetStep lockedStore trace finish ∧ trace.map Prod.snd = mixedCalls ∧
      finish.roBuf = lockedStore.roBuf ∧ finish.Distinct ∧
        (∀ entry ∈ trace, (entry.1.called entry.2).2 = .success ↔ entry.1.Allows entry.2) ∧
          (∀ entry ∈ trace, entry.2.name = some (letters 2) →
            (entry.1.called entry.2).1 = entry.1) ∧
              finish.rwBuf.lookup (letters 32) = some (letters 2) ∧
                finish.rwBuf.lookup (letters 1) = none ∧
                  finish.rwBuf.lookup (letters 5) = none := by
  let next (store : Store) (call : Call) : Store := (store.called call).1
  have run : Run SetStep lockedStore (traceOf next lockedStore mixedCalls)
      (mixedCalls.foldl next lockedStore) :=
    Run.of_labels lockedStore mixedCalls fun _ _ _ => .call
  have short : ∀ call ∈ mixedCalls, ∀ name, call.name = some name → name.strlen ≤ nameSize := by
    decide
  obtain ⟨roBuf, distinct, allowed, unchanged, values⟩ :=
    simulates_map run List.nodup_nil fun entry member => short entry.2 (mem_traceOf member)
  refine ⟨_, _, run, labels_traceOf _ _ _, roBuf, distinct, allowed, ?_, ?_, ?_, ?_⟩
  · exact fun entry member given => unchanged entry member (letters 2) given (by decide)
  · rw [values (letters 32) (by decide)]
    decide
  · rw [values (letters 1) (by decide)]
    decide
  · rw [values (letters 5) (by decide)]
    decide

end Simulation

section Failures

/-- What a call that returns an error should leave as it was. -/
structure Untouched (before after : Store) : Prop where
  rwList : after.rwBuf.list = before.rwBuf.list
  roList : after.roBuf.list = before.roBuf.list
  rwUsed : after.rwBuf.usedLen = before.rwBuf.usedLen
  roUsed : after.roBuf.usedLen = before.roBuf.usedLen

/-- The name is too long to be stored, but its first bytes are those of a
variable that can be written: it is deleted before the name is refused. -/
structure Overlong (store : Store) (name : CString) : Prop where
  opened : checkMtd store.devices = .success
  long : nameSize < name.strlen
  writable : store.roBuf.findVar name = none
  found : store.rwBuf.findVar name ≠ none

variable {store : Store}

theorem Untouched.refl (store : Store) : Untouched store store := ⟨rfl, rfl, rfl, rfl⟩

theorem setvar_overlong {name : CString} (overlong : Overlong store name) (text : CString) :
    (store.setvar (some name) (some text)).2 = .paramErr ∧
      ¬Untouched store (store.setvar (some name) (some text)).1 := by
  obtain ⟨opened, long, writable, found⟩ := overlong
  obtain ⟨left, list, -, result⟩ := setvar_named (some text) opened writable
  have refused : left.setVar name text = (left, .paramErr) := dif_neg (by omega)
  rw [result]
  simp only [Store.add, refused, true_and]
  rintro ⟨same, -⟩
  obtain ⟨index, known⟩ := Option.ne_none_iff_exists'.mp found
  obtain ⟨bound, -⟩ := List.findIdx?_eq_some_iff_getElem.mp known
  have length := congrArg List.length (list.symm.trans same)
  rw [without_eq, known, List.length_eraseIdx_of_lt bound] at length
  omega

theorem add_untouched (name : CString) (value : Option CString) (absent : ErrorCode)
    (failure : (store.add name value absent).2 ≠ .success) :
    (store.add name value absent).1 = store := by
  cases value with
  | none => rfl
  | some text =>
      by_cases short : name.strlen ≤ nameSize
      · obtain ⟨added, adding, -⟩ := setVar_short store.rwBuf text short
        simp only [Store.add, adding, ne_eq, not_true] at failure
      · have refused : store.rwBuf.setVar name text = (store.rwBuf, .paramErr) := dif_neg short
        simp only [Store.add, refused]

/-- Without a name that is too long a failed call returns before it deletes. -/
theorem setvar_untouched {name value : Option CString}
    (kept : ∀ given text, name = some given → value = some text → ¬Overlong store given)
    (failure : (store.setvar name value).2 ≠ .success) :
    (store.setvar name value).1 = store := by
  by_cases opened : checkMtd store.devices = .success
  · cases name with
    | none =>
        obtain ⟨cleared, clearing, -⟩ := clearLoop_success store.rwBuf.list store.rwBuf rfl
        rw [Store.setvar, if_pos opened, SysvarBuf.clearVar, clearing] at failure
        exact absurd rfl failure
    | some name =>
        cases writable : store.roBuf.findVar name with
        | some index =>
            exact (called_readonly store ⟨some name, value⟩ rfl
              (Option.isSome_of_eq_some writable)).1
        | none =>
            obtain ⟨left, list, -, result⟩ := setvar_named value opened writable
            cases found : store.rwBuf.findVar name with
            | none =>
                rw [Store.setvar, if_pos opened] at failure ⊢
                simp only [writable, found, Option.isSome_none, Bool.false_eq_true, if_false]
                  at failure ⊢
                exact add_untouched name value _ failure
            | some index =>
                rw [found, Option.isSome_some, if_pos rfl] at result
                rw [result] at failure
                cases value with
                | none => exact absurd rfl failure
                | some text =>
                    by_cases short : name.strlen ≤ nameSize
                    · obtain ⟨added, adding, -⟩ := setVar_short left text short
                      simp only [Store.add, adding, ne_eq, not_true] at failure
                    · refine absurd ⟨opened, by omega, writable, ?_⟩ (kept name text rfl rfl)
                      rw [found]
                      exact Option.some_ne_none index
  · have same : store.setvar name value = (store, .openErr) := if_neg opened
    rw [same]

/-- A failed `setvar` leaves the lists and the counters alone exactly when it is
not asked to set a name that is too long and begins with the name of a variable. -/
theorem failed_set_untouched_iff (store : Store) (name value : Option CString) :
    ((store.setvar name value).2 ≠ .success → Untouched store (store.setvar name value).1) ↔
      ∀ given text, name = some given → value = some text → ¬Overlong store given := by
  constructor
  · intro untouched given text same valued overlong
    subst same valued
    obtain ⟨code, touched⟩ := setvar_overlong overlong text
    exact touched (untouched (code ▸ by decide))
  · intro kept failure
    rw [setvar_untouched kept failure]
    exact .refl store

/-- The name fills its field, and the second call gives one byte more. -/
theorem failed_set_deletes : ¬∀ (store : Store) (name value : Option CString),
    (store.setvar name value).2 ≠ .success → Untouched store (store.setvar name value).1 := by
  intro failuresSpare
  have overlong : Overlong (blankStore.called (setLetters 32 1)).1 (letters 33) :=
    ⟨rfl, by decide, rfl, by decide⟩
  obtain ⟨code, touched⟩ := setvar_overlong overlong (letters 1)
  exact touched (failuresSpare _ _ _ (code ▸ by decide))

end Failures

end Gfiber.Sysvar
