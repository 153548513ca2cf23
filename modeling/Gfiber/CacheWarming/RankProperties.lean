import Gfiber.CacheWarming.HitLog
import Gfiber.Lib.Run

/-! When the hosts are sorted by their hits. -/

set_option autoImplicit false

namespace Gfiber.CacheWarming

open Lib

section Runs

/-- The program and its file, with the hits of each host as they are to be counted, and whether the
host has been loaded at the last restart and neither queried nor removed since. -/
structure World where
  log : HitLog
  file : Option (List Record)
  count : Host → Nat
  idle : Host → Bool

inductive Event where
  | query (qry : List Byte)
  | warm (order : IterationOrder Host) (saving : IterationOrder (Host × Entry)) (answer : Host → Answer)
  | restart

namespace World

def start (file : Option (List Record)) : World :=
  ⟨∅, file, fun _ => 0, fun _ => false⟩

/-- The hits that have been loaded for a host. -/
def loadedHits (file : Option (List Record)) (host : Host) : Nat :=
  (((loadHosts file).lookup host).map Entry.hits).getD 0

def next (world : World) : Event → World
  | .query qry =>
      let queried := (partitionQuery qry).2
      { world with
        log := processQuery qry world.log
        count := fun host => if host = queried then world.count host + 1 else world.count host
        idle := fun host => if host = queried then false else world.idle host }
  | .warm order saving answer =>
      let (log, file) := warmCache order saving answer world.log world.file
      { log
        file
        count := fun host => if host ∈ log then world.count host else 0
        idle := fun host => if host ∈ log then world.idle host else false }
  | .restart =>
      { world with
        log := loadHosts world.file
        count := loadedHits world.file
        idle := fun host => host ∈ loadHosts world.file }

/-- The sorted list has the hosts of the log, and never a host before one of more hits. -/
def Ranked (world : World) : Prop :=
  ∀ order, (sortHitLog order world.log).Perm world.log.keys ∧
    (sortHitLog order world.log).Pairwise fun left right => world.count right ≤ world.count left

/-- A query takes its host to the hits of every other host that has only been loaded. -/
def Overtakes (world : World) : Event → Prop
  | .query qry => ∀ other, other ≠ (partitionQuery qry).2 → world.idle other →
      world.count other ≤ world.count (partitionQuery qry).2 + 1
  | _ => True

def Step (world : World) (event : Event) (after : World) : Prop :=
  after = world.next event

end World

end Runs

section Sorting

variable {world : World}

open World

def Entry.queried : Entry → Bool
  | .tuple _ _ => true
  | .list _ _ => false

/-- The log has the hits, in a list for a host that has only been loaded, and nothing else is
counted. -/
structure Tracked (world : World) : Prop where
  entry : ∀ host entry, world.log.lookup host = some entry →
    entry.hits = world.count host ∧ entry.queried = !world.idle host
  absent : ∀ host, host ∉ world.log → world.count host = 0 ∧ world.idle host = false

/-- Whoever has been queried has the hits of all that have only been loaded. -/
def Ahead (world : World) : Prop :=
  ∀ queried ∈ world.log, world.idle queried = false →
    ∀ other, world.idle other = true → world.count other ≤ world.count queried

theorem rank_le {lower upper : Entry} (below : lower.rank ≤ upper.rank) :
    (lower.queried = false ∧ upper.queried = true) ∨
      lower.queried = upper.queried ∧ lower.hits ≤ upper.hits := by
  cases lower with
  | tuple hits time =>
      cases upper with
      | tuple more later =>
          refine Or.inr ⟨rfl, ?_⟩
          have inner := (Prod.Lex.toLex_le_toLex.mp below).resolve_left (lt_irrefl _)
          cases Prod.Lex.toLex_le_toLex.mp inner.2 with
          | inl less => exact less.le
          | inr same => exact same.1.le
      | list more later =>
          cases Prod.Lex.toLex_le_toLex.mp below with
          | inl less => exact absurd (show true < false from less) (by decide)
          | inr same => cases same.1
  | list hits time =>
      cases upper with
      | tuple more later => exact Or.inl ⟨rfl, rfl⟩
      | list more later =>
          refine Or.inr ⟨rfl, ?_⟩
          have inner := (Prod.Lex.toLex_le_toLex.mp below).resolve_left (lt_irrefl _)
          cases Prod.Lex.toLex_le_toLex.mp inner.2 with
          | inl less => exact less.le
          | inr same => exact same.1.le

theorem sortHitLog_perm (order : IterationOrder Host) (log : HitLog) :
    (sortHitLog order log).Perm log.keys :=
  (List.perm_insertionSort _ _).trans (order.perm log.keys)

theorem sortHitLog_pairwise (order : IterationOrder Host) (log : HitLog) :
    (sortHitLog order log).Pairwise fun left right => rankOf log right ≤ rankOf log left := by
  have total : Std.Total fun left right => rankOf log right ≤ rankOf log left :=
    ⟨fun left right => le_total (rankOf log right) (rankOf log left)⟩
  have trans : IsTrans Host fun left right => rankOf log right ≤ rankOf log left :=
    ⟨fun _ _ _ first second => second.trans first⟩
  exact List.pairwise_insertionSort _ _

theorem Tracked.rankOf_le (tracked : Tracked world) {lower upper : Host}
    (inside : lower ∈ world.log) (also : upper ∈ world.log)
    (below : rankOf world.log lower ≤ rankOf world.log upper) :
    (world.idle lower = true ∧ world.idle upper = false) ∨
      world.idle lower = world.idle upper ∧ world.count lower ≤ world.count upper := by
  obtain ⟨entry, found⟩ := Option.isSome_iff_exists.mp (AList.lookup_isSome.mpr inside)
  obtain ⟨other, known⟩ := Option.isSome_iff_exists.mp (AList.lookup_isSome.mpr also)
  rw [rankOf, rankOf, found, known] at below
  obtain ⟨hits, queried⟩ := tracked.entry lower entry found
  obtain ⟨more, asked⟩ := tracked.entry upper other known
  cases rank_le below with
  | inl apart =>
      rw [queried, asked] at apart
      exact Or.inl ⟨by simpa using apart.1, by simpa using apart.2⟩
  | inr alike =>
      rw [queried, asked, hits, more] at alike
      exact Or.inr ⟨by simpa using alike.1, alike.2⟩

theorem Tracked.inside (tracked : Tracked world) {host : Host} (idle : world.idle host = true) :
    host ∈ world.log := by
  by_contra outside
  have asked := (tracked.absent host outside).2
  rw [idle] at asked
  cases asked

/-- The order is right exactly if whoever has been queried is ahead. -/
theorem ranked_iff_ahead (tracked : Tracked world) : world.Ranked ↔ Ahead world := by
  constructor
  · intro ranked queried inside asked other idle
    obtain ⟨perm, counted⟩ := ranked .inserted
    have sorted := sortHitLog_pairwise .inserted world.log
    let Below := fun left right =>
      world.idle left = false → world.idle right = true → world.count right ≤ world.count left
    have same : ∀ host ∈ sortHitLog .inserted world.log, Below host host := by
      intro host _ queried idle
      exact absurd (queried.symm.trans idle) Bool.false_ne_true
    have before : (sortHitLog .inserted world.log).Pairwise Below :=
      counted.imp fun below _ _ => below
    -- Of the two, the one that has only been loaded comes last.
    have behind : (sortHitLog .inserted world.log).Pairwise (flip Below) := by
      refine sorted.imp_of_mem ?_
      intro left right first second below queried idle
      have apart := tracked.rankOf_le (perm.mem_iff.mp second) (perm.mem_iff.mp first) below
      rw [queried, idle] at apart
      cases apart with
      | inl apart => cases apart.1
      | inr alike => cases alike.1
    exact List.Pairwise.forall_of_forall_of_flip same before behind (perm.mem_iff.mpr inside)
      (perm.mem_iff.mpr (tracked.inside idle)) asked idle
  · intro ahead order
    have perm := sortHitLog_perm order world.log
    refine ⟨perm, (sortHitLog_pairwise order world.log).imp_of_mem ?_⟩
    intro left right first second below
    have inside : right ∈ world.log := perm.mem_iff.mp second
    have also : left ∈ world.log := perm.mem_iff.mp first
    cases tracked.rankOf_le inside also below with
    | inl apart => exact ahead left also apart.2 right apart.1
    | inr alike => exact alike.2

end Sorting

section Steps

variable {world : World}

open World

theorem processQuery_eq (qry : List Byte) (log : HitLog) :
    processQuery qry log = log.insert (partitionQuery qry).2
      (.tuple (((log.lookup (partitionQuery qry).2).map Entry.hits).getD 0 + 1)
        (partitionQuery qry).1) := by
  rw [processQuery]
  cases found : log.lookup (partitionQuery qry).2 with
  | none => simp [found]
  | some entry => simp [found]

theorem processQuery_lookup (qry : List Byte) (log : HitLog) (host : Host) :
    (processQuery qry log).lookup host =
      if host = (partitionQuery qry).2 then
        some (.tuple (((log.lookup (partitionQuery qry).2).map Entry.hits).getD 0 + 1)
          (partitionQuery qry).1)
      else log.lookup host := by
  rw [processQuery_eq]
  by_cases same : host = (partitionQuery qry).2
  · rw [if_pos same, same, AList.lookup_insert]
  · rw [if_neg same, AList.lookup_insert_ne same]

theorem processQuery_mem (qry : List Byte) (log : HitLog) :
    (partitionQuery qry).2 ∈ processQuery qry log := by
  rw [processQuery_eq, AList.mem_insert]
  exact Or.inl rfl

theorem lookup_erase {log : HitLog} {host removed : Host} (kept : host ∈ log.erase removed) :
    (log.erase removed).lookup host = log.lookup host :=
  AList.lookup_erase_ne (AList.mem_erase.mp kept).1

/-- A pass only removes hosts. -/
theorem fetchHosts_lookup (answer : Host → Answer) (hosts : List Host) (log : HitLog)
    (host : Host) (kept : host ∈ (fetchHosts answer hosts log).1) :
    (fetchHosts answer hosts log).1.lookup host = log.lookup host := by
  fun_induction fetchHosts answer hosts log with
  | case1 log => rfl
  | case2 fetched rest log found after remaining ran ih =>
      rw [ran] at ih
      exact ih kept
  | case3 fetched log failed => exact lookup_erase kept
  | case4 fetched log failed following rest after remaining ran ih =>
      rw [ran] at ih
      have same := ih kept
      have erased : host ∈ log.erase fetched := by
        rw [← AList.lookup_isSome, ← same, AList.lookup_isSome]
        exact kept
      exact same.trans (lookup_erase erased)
  | case5 fetched rest log raised => rfl

theorem warmCache_lookup (order : IterationOrder Host) (saving : IterationOrder (Host × Entry))
    (answer : Host → Answer) (log : HitLog) (file : Option (List Record)) (host : Host)
    (kept : host ∈ (warmCache order saving answer log file).1) :
    (warmCache order saving answer log file).1.lookup host = log.lookup host := by
  have same := fetchHosts_lookup answer ((sortHitLog order log).take topN) log host
  rw [warmCache] at kept ⊢
  cases ran : fetchHosts answer ((sortHitLog order log).take topN) log with
  | mk after remaining =>
      rw [ran] at same kept
      cases remaining with
      | some hosts => exact same kept
      | none => exact same kept

theorem warmCache_mem {order : IterationOrder Host} {saving : IterationOrder (Host × Entry)}
    {answer : Host → Answer} {log : HitLog} {file : Option (List Record)} {host : Host}
    (kept : host ∈ (warmCache order saving answer log file).1) : host ∈ log := by
  have same := warmCache_lookup order saving answer log file host kept
  rw [← AList.lookup_isSome] at kept ⊢
  rw [← same]
  exact kept

theorem foldl_queried (records : List Record) (log : HitLog) {host : Host} {entry : Entry}
    (known : ∀ entry, log.lookup host = some entry → entry.queried = false)
    (found : (records.foldl loadRecord log).lookup host = some entry) : entry.queried = false := by
  induction records generalizing log with
  | nil => exact known entry found
  | cons record records ih =>
      apply ih (loadRecord log record) ?_ found
      intro entry loaded
      rw [loadRecord] at loaded
      by_cases same : host = Host.ofUnicode (joinSurrogates record.1)
      · rw [same, AList.lookup_insert] at loaded
        cases loaded
        rfl
      · rw [AList.lookup_insert_ne same] at loaded
        exact known entry loaded

/-- Whatever has been loaded is in a list. -/
theorem loadHosts_queried (file : Option (List Record)) {host : Host} {entry : Entry}
    (found : (loadHosts file).lookup host = some entry) : entry.queried = false := by
  cases file with
  | none => cases found
  | some records =>
      refine foldl_queried records ∅ ?_ found
      intro entry known
      cases known

theorem tracked_start (file : Option (List Record)) : Tracked (start file) := by
  refine ⟨?_, fun _ _ => ⟨rfl, rfl⟩⟩
  intro host entry found
  cases found

/-- The hits of a host that is not in the log are none. -/
theorem Tracked.hits_getD (tracked : Tracked world) (host : Host) :
    ((world.log.lookup host).map Entry.hits).getD 0 = world.count host := by
  cases found : world.log.lookup host with
  | none => exact (tracked.absent host (AList.lookup_eq_none.mp found)).1.symm
  | some entry => exact (tracked.entry host entry found).1

theorem tracked_query (tracked : Tracked world) (qry : List Byte) :
    Tracked (world.next (.query qry)) := by
  constructor
  · intro host entry found
    rw [next, processQuery_lookup] at found
    by_cases same : host = (partitionQuery qry).2
    · rw [if_pos same] at found
      cases found
      refine ⟨?_, ?_⟩
      · simp only [next, same, if_true, tracked.hits_getD, Entry.hits]
      · simp [next, same, Entry.queried]
    · rw [if_neg same] at found
      simpa only [next, if_neg same] using tracked.entry host entry found
  · intro host outside
    have apart : host ≠ (partitionQuery qry).2 := by
      rintro rfl
      exact outside (processQuery_mem qry world.log)
    have missing : host ∉ world.log := by
      rw [← AList.lookup_eq_none] at outside ⊢
      rw [next, processQuery_lookup, if_neg apart] at outside
      exact outside
    simpa only [next, if_neg apart] using tracked.absent host missing

theorem tracked_warm (tracked : Tracked world) (order : IterationOrder Host)
    (saving : IterationOrder (Host × Entry)) (answer : Host → Answer) :
    Tracked (world.next (.warm order saving answer)) := by
  constructor
  · intro host entry found
    have inside : host ∈ (warmCache order saving answer world.log world.file).1 :=
      AList.lookup_isSome.mp (Option.isSome_of_mem found)
    have before := (warmCache_lookup order saving answer _ _ host inside).symm.trans found
    have kept := tracked.entry host entry before
    simpa [next, inside] using kept
  · intro host outside
    have removed : host ∉ (warmCache order saving answer world.log world.file).1 := outside
    simp [next, removed]

theorem idle_restart (world : World) (host : Host) :
    (world.next .restart).idle host = true ↔ host ∈ loadHosts world.file :=
  decide_eq_true_iff

theorem tracked_restart (world : World) : Tracked (world.next .restart) := by
  constructor
  · intro host entry found
    have known : (loadHosts world.file).lookup host = some entry := found
    have inside : host ∈ loadHosts world.file :=
      AList.lookup_isSome.mp (Option.isSome_of_mem known)
    refine ⟨?_, ?_⟩
    · simp [next, loadedHits, known]
    · simp [next, inside, loadHosts_queried world.file known]
  · intro host outside
    have absent : (loadHosts world.file).lookup host = none := AList.lookup_eq_none.mpr outside
    have missing : host ∉ loadHosts world.file := outside
    simp [next, loadedHits, absent, missing]

theorem tracked_next (tracked : Tracked world) (event : Event) : Tracked (world.next event) := by
  cases event with
  | query qry => exact tracked_query tracked qry
  | warm order saving answer => exact tracked_warm tracked order saving answer
  | restart => exact tracked_restart world

theorem ahead_start (file : Option (List Record)) : Ahead (start file) := by
  intro queried inside
  cases inside

theorem ahead_query (ahead : Ahead world) (qry : List Byte) :
    Ahead (world.next (.query qry)) ↔ Overtakes world (.query qry) := by
  constructor
  · intro after other apart idle
    have behind := after (partitionQuery qry).2 (processQuery_mem qry world.log)
      (by simp [next]) other (by simpa [next, apart] using idle)
    simpa [next, apart] using behind
  · intro overtakes queried inside asked other idle
    have apart : other ≠ (partitionQuery qry).2 := by
      rintro rfl
      simp [next] at idle
    have before : world.idle other = true := by simpa [next, apart] using idle
    by_cases same : queried = (partitionQuery qry).2
    · rw [same]
      simpa [next, apart] using overtakes other apart before
    · have known : queried ∈ world.log := by
        rw [← AList.lookup_isSome] at inside ⊢
        rw [next, processQuery_lookup, if_neg same] at inside
        exact inside
      have asked : world.idle queried = false := by simpa [next, same] using asked
      simpa [next, apart, same] using ahead queried known asked other before

theorem ahead_warm (ahead : Ahead world) (order : IterationOrder Host)
    (saving : IterationOrder (Host × Entry)) (answer : Host → Answer) :
    Ahead (world.next (.warm order saving answer)) := by
  intro queried inside asked other idle
  have kept : queried ∈ (warmCache order saving answer world.log world.file).1 := inside
  have left : other ∈ (warmCache order saving answer world.log world.file).1 := by
    by_contra removed
    simp [next, removed] at idle
  simp only [next, kept, left, if_true] at asked idle ⊢
  exact ahead queried (warmCache_mem kept) asked other idle

theorem ahead_restart (world : World) : Ahead (world.next .restart) := by
  intro queried inside asked
  exact absurd ((idle_restart world queried).mpr inside) (by simp [asked])

theorem ahead_next (ahead : Ahead world) (event : Event) :
    Ahead (world.next event) ↔ Overtakes world event := by
  cases event with
  | query qry => exact ahead_query ahead qry
  | warm order saving answer => exact iff_of_true (ahead_warm ahead order saving answer) trivial
  | restart => exact iff_of_true (ahead_restart world) trivial

end Steps

section Main

variable {file : Option (List Record)} {trace : List (World × Event)} {finish : World}

/-- The hosts are sorted by their hits in every state of a run exactly if no query leaves a host
behind one that has only been loaded. -/
theorem ranked_throughout_iff (run : Run World.Step (World.start file) trace finish) :
    Throughout World.Ranked trace finish ↔ StepsMeet World.Overtakes trace := by
  let invariant : World → Prop := fun world => Tracked world ∧ Ahead world
  have initial : invariant (World.start file) := ⟨tracked_start file, ahead_start file⟩
  apply run.throughout_iff_met initial
  · intro world held
    exact (ranked_iff_ahead held.1).mpr held.2
  · intro world event after held met step
    cases step
    exact ⟨tracked_next held.1 event, (ahead_next held.2 event).mpr met⟩
  · intro world event after held step ranked
    cases step
    have tracked := tracked_next held.1 event
    exact (ahead_next held.2 event).mp ((ranked_iff_ahead tracked).mp ranked)

/-- Two queries for one host, which is fetched and saved, and one query after a restart. -/
def visits (name : Byte) : List Event :=
  [.restart, .query [49, 32, 97], .query [50, 32, 97], .warm .inserted .inserted fun _ => .found,
    .restart, .query [51, 32, name]]

theorem ranked_throughout_visits :
    Throughout World.Ranked (traceOf World.next (World.start none) (visits 97))
      ((visits 97).foldl World.next (World.start none)) := by
  refine (ranked_throughout_iff (Run.of_labels _ _ fun _ _ _ => rfl)).mpr ?_
  intro entry member
  simp only [visits, traceOf, List.mem_cons, List.not_mem_nil, or_false] at member
  rcases member with rfl | rfl | rfl | rfl | rfl | rfl
  · trivial
  · intro other _ idle
    cases (idle_restart (World.start none) other).mp idle
  · intro other apart idle
    cases (idle_restart (World.start none) other).mp ((if_neg apart).symm.trans idle)
  · trivial
  · trivial
  · intro other apart idle
    have loaded := AList.mem_keys.mp ((idle_restart _ other).mp idle)
    exact absurd (List.mem_singleton.mp loaded) apart

/-- A query for another host puts it before the one that has two. -/
theorem not_ranked_loaded :
    ∃ trace finish, Run World.Step (World.start none) trace finish ∧ ¬ finish.Ranked := by
  refine ⟨_, _, Run.of_labels _ (visits 98) fun _ _ _ => rfl, ?_⟩
  intro ranked
  have sorted := (ranked .inserted).2
  revert sorted
  decide

end Main

end Gfiber.CacheWarming
