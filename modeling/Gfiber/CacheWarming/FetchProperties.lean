import Gfiber.CacheWarming.Fetch
import Gfiber.CacheWarming.RankProperties

/-! When each of the hosts is queried once. -/

set_option autoImplicit false

namespace Gfiber.CacheWarming.Fetch

open Lib

section Loop

/-- The hosts that the loop comes to: the one behind a failure is passed over. -/
def visited (answer : Host → Answer) : List Host → List Host
  | [] => []
  | [host] => [host]
  | host :: next :: rest =>
      match answer host with
      | .found => host :: visited answer (next :: rest)
      | .dnsException => host :: visited answer rest
      | .raises => [host]

theorem visited_subset (answer : Host → Answer) (hosts : List Host) :
    visited answer hosts ⊆ hosts := by
  fun_induction visited answer hosts with
  | case1 => simp
  | case2 host => simp
  | case3 host next rest found ih => exact List.cons_subset_cons _ ih
  | case4 host next rest failed ih =>
      exact List.cons_subset_cons _ (List.subset_cons_of_subset _ ih)
  | case5 host next rest raised => simp

theorem loop_done (answer : Host → Answer) (hosts : List Host) {index : Nat} (log : HitLog)
    (beyond : hosts.length ≤ index) : loop answer hosts index log = ⟨[], log, some hosts⟩ := by
  rw [loop, dif_neg (Nat.not_lt.mpr beyond)]

/-- What the loop does when it comes to the first of the hosts that are left. -/
theorem loop_cons (answer : Host → Answer) {front rest : List Host} {host : Host} (log : HitLog)
    (distinct : (front ++ host :: rest).Nodup) (known : host ∈ log) :
    loop answer (front ++ host :: rest) front.length log =
      match answer host with
      | .found => (loop answer (front ++ host :: rest) (front.length + 1) log).after host
      | .dnsException => (loop answer (front ++ rest) (front.length + 1) (log.erase host)).after host
      | .raises => ⟨[host], log, none⟩ := by
  have inside : front.length < (front ++ host :: rest).length := by simp
  have first : (front ++ host :: rest)[front.length] = host := by simp
  have other : host ∉ front := fun member =>
    (List.nodup_append.mp distinct).2.2 host member host List.mem_cons_self rfl
  have removed : (front ++ host :: rest).erase host = front ++ rest := by
    rw [List.erase_append_right _ other, List.erase_cons_head]
  rw [loop, dif_pos inside]
  cases given : answer host with
  | found => simp only [first, given]
  | dnsException => simp only [first, given, if_pos known, removed]
  | raises => simp only [first, given]

/-- The loop over the list that it changes, as a recursion over the hosts it has not come to. -/
theorem loop_eq (answer : Host → Answer) (front todo : List Host) (log : HitLog)
    (distinct : (front ++ todo).Nodup) (known : ∀ host ∈ todo, host ∈ log) :
    loop answer (front ++ todo) front.length log =
      ⟨visited answer todo, (fetchHosts answer todo log).1,
        (fetchHosts answer todo log).2.map (front ++ ·)⟩ := by
  fun_induction visited answer todo generalizing front log with
  | case1 => simp [loop_done, fetchHosts]
  | case2 host =>
      have ended {hosts : List Host} (short : hosts.length ≤ front.length + 1) (log : HitLog) :
          loop answer hosts (front.length + 1) log = ⟨[], log, some hosts⟩ :=
        loop_done answer hosts log short
      rw [loop_cons answer log distinct (known host List.mem_cons_self)]
      cases result : answer host with
      | found => simp [ended, Looped.after, fetchHosts, result]
      | dnsException => simp [ended, Looped.after, fetchHosts, result]
      | raises => simp [fetchHosts, result]
  | case3 host next rest found ih =>
      have later := ih (front ++ [host]) log (by simpa using distinct)
        fun other member => known other (List.mem_cons_of_mem _ member)
      rw [List.append_assoc, List.singleton_append, List.length_append,
        List.length_singleton] at later
      rw [loop_cons answer log distinct (known host List.mem_cons_self), found]
      simp [later, Looped.after, fetchHosts, found, Function.comp_def]
  | case4 host next rest failed ih =>
      have apart : host ∉ next :: rest ∧ (front ++ [next] ++ rest).Nodup := by
        obtain ⟨_, tail, _⟩ := List.nodup_append.mp distinct
        refine ⟨(List.nodup_cons.mp tail).1, ?_⟩
        have fewer := List.Sublist.append_left (List.sublist_cons_self host (next :: rest)) front
        simpa using distinct.sublist fewer
      have later := ih (front ++ [next]) (log.erase host) apart.2 fun other member => by
        rw [AList.mem_erase]
        have ne : other ≠ host := by
          rintro rfl
          exact apart.1 (List.mem_cons_of_mem _ member)
        exact ⟨ne, known other (by simp [member])⟩
      rw [List.append_assoc, List.singleton_append, List.length_append,
        List.length_singleton] at later
      rw [loop_cons answer log distinct (known host List.mem_cons_self), failed]
      simp [later, Looped.after, fetchHosts, failed, Function.comp_def]
  | case5 host next rest raised =>
      rw [loop_cons answer log distinct (known host List.mem_cons_self), raised]
      simp [fetchHosts, raised]

end Loop

section Pass

/-- What comes of the lookups of which some fail. -/
def answerOf (failing : Host → Bool) (host : Host) : Answer :=
  if failing host then .dnsException else .found

theorem answerOf_found {failing : Host → Bool} {host : Host} :
    answerOf failing host = .found ↔ failing host = false := by
  cases fails : failing host with
  | false => simp [answerOf, fails]
  | true => simp [answerOf, fails]

theorem answerOf_dnsException {failing : Host → Bool} {host : Host} :
    answerOf failing host = .dnsException ↔ failing host = true := by
  cases fails : failing host with
  | false => simp [answerOf, fails]
  | true => simp [answerOf, fails]

theorem answerOf_ne_raises {failing : Host → Bool} {host : Host} :
    answerOf failing host ≠ .raises := by
  rw [answerOf]
  split
  case isTrue => exact Answer.noConfusion
  case isFalse => exact Answer.noConfusion

theorem last_fails_of_visited {failing : Host → Bool} {hosts : List Host} (distinct : hosts.Nodup)
    (all : ∀ host ∈ hosts, host ∈ visited (answerOf failing) hosts) :
    ∀ host ∈ hosts.dropLast, failing host = false := by
  fun_induction visited (answerOf failing) hosts with
  | case1 => simp
  | case2 host => simp
  | case3 host next rest found ih =>
      obtain ⟨other, distinct⟩ := List.nodup_cons.mp distinct
      have later := ih distinct fun later member => by
        rcases List.mem_cons.mp (all later (List.mem_cons_of_mem _ member)) with rfl | come
        · exact absurd member other
        · exact come
      rw [List.dropLast_cons_cons, List.forall_mem_cons]
      exact ⟨answerOf_found.mp found, later⟩
  | case4 host next rest failed ih =>
      obtain ⟨other, distinct⟩ := List.nodup_cons.mp distinct
      rcases List.mem_cons.mp (all next (by simp)) with rfl | come
      · exact absurd List.mem_cons_self other
      · exact absurd (visited_subset _ _ come) (List.nodup_cons.mp distinct).1
  | case5 host next rest raised => exact absurd raised answerOf_ne_raises

/-- What the loop leaves when only the last host may fail. -/
theorem fetchHosts_of_last {failing : Host → Bool} {hosts : List Host} (log : HitLog)
    (last : ∀ host ∈ hosts.dropLast, failing host = false) :
    visited (answerOf failing) hosts = hosts ∧
      (fetchHosts (answerOf failing) hosts log).2 = some (hosts.filter fun host => !failing host) ∧
      ∀ other, (fetchHosts (answerOf failing) hosts log).1.lookup other =
        if other ∈ hosts ∧ failing other then none else log.lookup other := by
  fun_induction visited (answerOf failing) hosts with
  | case1 => simp [fetchHosts]
  | case2 host =>
      cases fails : failing host with
      | false =>
          have found := answerOf_found.mpr fails
          refine ⟨rfl, by simp [fetchHosts, found, fails], fun other => ?_⟩
          have kept : ¬(other ∈ [host] ∧ failing other) := by
            rintro ⟨member, failed⟩
            rw [List.mem_singleton.mp member, fails] at failed
            cases failed
          simp only [fetchHosts, found, if_neg kept]
      | true =>
          have failed := answerOf_dnsException.mpr fails
          refine ⟨rfl, by simp [fetchHosts, failed, fails], fun other => ?_⟩
          by_cases same : other = host
          · rw [same]
            simp [fetchHosts, failed, fails, AList.lookup_erase]
          · simp [fetchHosts, failed, same, AList.lookup_erase_ne same]
  | case3 host next rest found ih =>
      have fails := answerOf_found.mp found
      obtain ⟨all, left, looked⟩ := ih fun other member => last other (by simp [member])
      refine ⟨by rw [all], by simp [fetchHosts, found, fails, left], fun other => ?_⟩
      simp only [fetchHosts, found] at looked ⊢
      rw [looked other]
      by_cases same : other = host
      · simp [same, fails]
      · simp [same]
  | case4 host next rest failed ih =>
      have fails := last host (by simp)
      rw [answerOf_dnsException.mp failed] at fails
      cases fails
  | case5 host next rest raised => exact absurd raised answerOf_ne_raises

theorem hitLogSubset_of_mem {log : HitLog} {hosts : List Host} (known : ∀ host ∈ hosts, host ∈ log) :
    ∃ entries, hitLogSubset log hosts = some entries ∧ entries.map Prod.fst = hosts ∧
      ∀ entry ∈ entries, log.lookup entry.1 = some entry.2 := by
  induction hosts with
  | nil => exact ⟨[], rfl, rfl, by simp⟩
  | cons host hosts ih =>
      obtain ⟨entries, subset, keys, looked⟩ :=
        ih fun other member => known other (List.mem_cons_of_mem _ member)
      obtain ⟨entry, found⟩ := Option.isSome_iff_exists.mp
        (AList.lookup_isSome.mpr (known host List.mem_cons_self))
      refine ⟨(host, entry) :: entries, by simp [hitLogSubset, found, subset], by simp [keys], ?_⟩
      exact List.forall_mem_cons.mpr ⟨found, looked⟩

/-- Each host is queried once, those whose query fails are taken out of the log, and the others are
saved with their entries. -/
structure Complete (failing : Host → Bool) (hosts : List Host) (log : HitLog) (fetched : Fetched) :
    Prop where
  queried : ∀ host, fetched.queried.count host = if host ∈ hosts then 1 else 0
  removed : ∀ host, fetched.log.lookup host =
    if host ∈ hosts ∧ failing host then none else log.lookup host
  saved : ∃ entries, fetched.saved = some entries ∧
    (entries.map Prod.fst).Perm (hosts.filter fun host => !failing host) ∧
    ∀ entry ∈ entries, log.lookup entry.1 = some entry.2

theorem fetch_eq (answer : Host → Answer) {hosts : List Host} {log : HitLog} (distinct : hosts.Nodup)
    (known : ∀ host ∈ hosts, host ∈ log) :
    fetch answer hosts log =
      let (left, saved) := fetchHosts answer (hosts.take topN) log
      ⟨visited answer (hosts.take topN), left, saved.bind (hitLogSubset left)⟩ := by
  have first : (if topN < hosts.length then hosts.take topN else hosts) = hosts.take topN := by
    split
    case isTrue => rfl
    case isFalse short => rw [List.take_of_length_le (Nat.not_lt.mp short)]
  have looped := loop_eq answer [] (hosts.take topN) log
    (distinct.sublist (List.take_sublist _ _)) fun host member => known host (List.mem_of_mem_take member)
  rw [List.nil_append, List.length_nil] at looped
  rw [fetch, first, looped]
  simp

/-- The hosts that are fetched are treated as they are to be unless one of them fails that is not
the last one. -/
theorem fetch_complete_iff (order : IterationOrder Host) (log : HitLog) (failing : Host → Bool) :
    Complete failing ((sortHitLog order log).take topN) log
        (fetch (answerOf failing) (sortHitLog order log) log) ↔
      ∀ host ∈ ((sortHitLog order log).take topN).dropLast, failing host = false := by
  have perm := sortHitLog_perm order log
  have distinct : (sortHitLog order log).Nodup := perm.nodup_iff.mpr log.nodupKeys
  have known : ∀ host ∈ sortHitLog order log, host ∈ log := fun host member =>
    AList.mem_keys.mp (perm.mem_iff.mp member)
  rw [fetch_eq (answerOf failing) distinct known]
  have top := distinct.sublist (List.take_sublist topN _)
  have listed : ∀ host ∈ (sortHitLog order log).take topN, host ∈ log := fun host member =>
    known host (List.mem_of_mem_take member)
  generalize (sortHitLog order log).take topN = hosts at top listed
  constructor
  · intro complete
    refine last_fails_of_visited top fun host member => ?_
    have once := complete.queried host
    rw [if_pos member] at once
    exact List.count_pos_iff.mp (once ▸ Nat.one_pos)
  · intro last
    obtain ⟨all, left, looked⟩ := fetchHosts_of_last log last
    have stay : ∀ host ∈ hosts.filter fun host => !failing host,
        (fetchHosts (answerOf failing) hosts log).1.lookup host = log.lookup host := by
      intro host member
      have works := (List.mem_filter.mp member).2
      rw [looked, if_neg]
      rintro ⟨_, fails⟩
      rw [fails] at works
      cases works
    have kept : ∀ host ∈ hosts.filter fun host => !failing host,
        host ∈ (fetchHosts (answerOf failing) hosts log).1 := by
      intro host member
      rw [← AList.lookup_isSome, stay host member, AList.lookup_isSome]
      exact listed host (List.mem_filter.mp member).1
    obtain ⟨entries, subset, keys, found⟩ := hitLogSubset_of_mem kept
    refine ⟨fun host => ?_, looked, entries, by simp [left, subset], .of_eq keys, ?_⟩
    · simp only [all]
      split
      case isTrue member => exact List.count_eq_one_of_mem top member
      case isFalse other => exact List.count_eq_zero.mpr other
    · intro entry member
      have listed : entry.1 ∈ hosts.filter fun host => !failing host :=
        keys ▸ List.mem_map_of_mem member
      rw [← stay entry.1 listed, found entry member]

/-- Two hosts in the log of which both lookups fail. -/
def twoHosts : HitLog :=
  (processQuery (bytesOf "2 b.com") (processQuery (bytesOf "1 a.com") ∅))

/-- The second host is not queried. It stays in the log and is saved. -/
theorem failures_passed_over :
    ¬ ∀ (order : IterationOrder Host) (log : HitLog) (failing : Host → Bool),
      Complete failing ((sortHitLog order log).take topN) log
        (fetch (answerOf failing) (sortHitLog order log) log) := by
  intro alwaysComplete
  have complete := alwaysComplete .inserted twoHosts fun _ => true
  have sorted : sortHitLog .inserted twoHosts = [.bytes (bytesOf "b.com"), .bytes (bytesOf "a.com")] := by
    decide
  rw [sorted] at complete
  have queried : (fetch (answerOf fun _ => true)
      [.bytes (bytesOf "b.com"), .bytes (bytesOf "a.com")] twoHosts).queried =
        [.bytes (bytesOf "b.com")] := by
    rw [fetch_eq _ (by decide) (by decide)]
    rfl
  have once := complete.queried (.bytes (bytesOf "a.com"))
  rw [queried] at once
  exact absurd once (by decide)

end Pass

end Gfiber.CacheWarming.Fetch
