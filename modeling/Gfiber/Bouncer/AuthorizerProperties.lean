import Gfiber.Bouncer.Authorizer

/-! How the rules of the firewall follow the known users. For each address a chain holds one
rule while its user is known, and one more for each time that the user has been accepted
again before it was removed. -/

set_option autoImplicit false

namespace Gfiber.Bouncer

open Lib

section Rules

theorem toLower_toUpper {char : Char} (digit : isHexDigit char ∨ char = ':') :
    char.toUpper.toLower = char.toLower := by
  have all : ∀ char ∈ ':' :: "0123456789abcdefABCDEF".toList,
      char.toUpper.toLower = char.toLower := Text.forall_of_all (by decide)
  cases digit with
  | inl digit => exact all char (List.mem_cons_of_mem _ (of_decide_eq_true digit))
  | inr colon => exact all char (colon ▸ List.mem_cons_self)

theorem lower_upper (pairs : Nat) {text : Text} (found : matchesMacAddr pairs text) :
    lower (upper text) = lower text := by
  induction pairs, text using matchesMacAddr.induct with
  | case1 high low =>
      rw [matchesMacAddr, Bool.and_eq_true] at found
      simp [upper, toLower_toUpper (Or.inl found.1), toLower_toUpper (Or.inl found.2)]
  | case2 high low last =>
      rw [matchesMacAddr, Bool.and_eq_true, Bool.and_eq_true] at found
      have newline : last = '\n' := of_decide_eq_true found.2
      simp [upper, toLower_toUpper (Or.inl found.1.1), toLower_toUpper (Or.inl found.1.2),
        newline]
  | case3 pairs high low colon rest ih =>
      rw [matchesMacAddr, Bool.and_eq_true, Bool.and_eq_true, Bool.and_eq_true] at found
      have separator : colon = ':' := of_decide_eq_true found.1.2
      have tail := ih found.2
      rw [upper] at tail
      simp only [upper, List.map_cons, lower_cons, toLower_toUpper (Or.inl found.1.1.1),
        toLower_toUpper (Or.inl found.1.1.2), toLower_toUpper (Or.inr separator), tail]
  | case4 pairs text other =>
      simp [matchesMacAddr] at found

/-- Two addresses do not share a rule, though it has them in capital letters. -/
theorem allowMacRule_injective {macAddr other : MacAddr}
    (same : allowMacRule macAddr = allowMacRule other) : macAddr = other := by
  have capitals : upper macAddr.text = upper other.text := by
    simp only [allowMacRule, List.cons.injEq] at same
    exact same.2.2.2.1
  have texts : macAddr.text = other.text := by
    rw [← macAddr.normal, ← other.normal, ← lower_upper 5 macAddr.found, capitals,
      lower_upper 5 other.found]
  cases macAddr
  cases other
  cases texts
  rfl

variable {Time : Type} {opt : Options Time}

/-- The number of rules for an address. -/
def Firewall.rules (firewall : Firewall) (command : Command) (chain : Chain) (macAddr : MacAddr) :
    Nat :=
  (firewall command chain).count (allowMacRule macAddr)

theorem updateChains_apply (live : opt.dryRun = false) (operation : Operation) (macAddr : MacAddr)
    (firewall : Firewall) (command : Command) (chain : Chain) :
    updateChains opt operation macAddr firewall command chain =
      operation.apply (allowMacRule macAddr) (firewall command chain) := by
  cases chain with
  | filter => simp [updateChains, ip46tables, live]
  | nat => simp [updateChains, ip46tables, live]

theorem rules_append (live : opt.dryRun = false) (macAddr : MacAddr) (firewall : Firewall)
    (command : Command) (chain : Chain) (other : MacAddr) :
    (updateChains opt .append macAddr firewall).rules command chain other =
      firewall.rules command chain other + if other = macAddr then 1 else 0 := by
  rw [Firewall.rules, updateChains_apply live, Operation.apply, List.count_append,
    List.count_singleton]
  by_cases same : other = macAddr
  · simp [Firewall.rules, same]
  · have different : allowMacRule macAddr ≠ allowMacRule other := fun rules =>
      same (allowMacRule_injective rules).symm
    simp [Firewall.rules, same, different]

theorem rules_delete (live : opt.dryRun = false) (macAddr : MacAddr) (firewall : Firewall)
    (command : Command) (chain : Chain) (other : MacAddr) :
    (updateChains opt .delete macAddr firewall).rules command chain other =
      firewall.rules command chain other - if other = macAddr then 1 else 0 := by
  rw [Firewall.rules, updateChains_apply live, Operation.apply, List.count_erase]
  by_cases same : other = macAddr
  · simp [Firewall.rules, same]
  · have different : allowMacRule macAddr ≠ allowMacRule other := fun rules =>
      same (allowMacRule_injective rules).symm
    simp [Firewall.rules, same, different]

end Rules

section Balance

variable {Time : Type} {opt : Options Time} {extra : MacAddr → Nat} {state : State Time}

/-- Each chain has the rule of each known user, and the extra rules. -/
def Balanced (extra : MacAddr → Nat) (state : State Time) : Prop :=
  ∀ command chain macAddr, state.firewall.rules command chain macAddr =
    (if macAddr ∈ state.knownUsers then 1 else 0) + extra macAddr

theorem balanced_start : Balanced (fun _ => 0) (State.start : State Time) := by
  intro command chain macAddr
  simp [State.start, Firewall.rules]

/-- What is known of the same users with the same firewall. -/
theorem Balanced.same {next : State Time} (balanced : Balanced extra state)
    (firewall : next.firewall = state.firewall)
    (known : ∀ macAddr, macAddr ∈ next.knownUsers ↔ macAddr ∈ state.knownUsers) :
    Balanced extra next := by
  intro command chain macAddr
  rw [firewall, balanced command chain macAddr]
  simp [known macAddr]

theorem Balanced.expireUser (live : opt.dryRun = false) (balanced : Balanced extra state)
    {macAddr : MacAddr} (known : macAddr ∈ state.knownUsers) :
    Balanced extra (state.expireUser opt macAddr) := by
  intro command chain other
  rw [State.expireUser, rules_delete live, balanced command chain other]
  by_cases same : other = macAddr
  · simp [same, known]
  · simp [AList.mem_erase, same]

theorem Balanced.expireUsers (live : opt.dryRun = false) {expired : List MacAddr}
    (distinct : expired.Nodup) (balanced : Balanced extra state)
    (known : ∀ macAddr ∈ expired, macAddr ∈ state.knownUsers) :
    Balanced extra (expired.foldl (State.expireUser opt) state) := by
  induction expired generalizing state with
  | nil => exact balanced
  | cons macAddr expired ih =>
      obtain ⟨fresh, distinct⟩ := List.nodup_cons.mp distinct
      apply ih distinct (balanced.expireUser live (known macAddr List.mem_cons_self))
      intro other member
      rw [State.expireUser, AList.mem_erase]
      refine ⟨?_, known other (List.mem_cons_of_mem _ member)⟩
      intro same
      exact fresh (same ▸ member)

theorem lookup_expireUsers (expired : List MacAddr) (macAddr : MacAddr) :
    (expired.foldl (State.expireUser opt) state).knownUsers.lookup macAddr =
      if macAddr ∈ expired then none else state.knownUsers.lookup macAddr := by
  induction expired generalizing state with
  | nil => simp
  | cons other expired ih =>
      rw [List.foldl_cons, ih]
      by_cases later : macAddr ∈ expired
      · simp [later]
      · by_cases same : macAddr = other
        · rw [if_neg later, if_pos (same ▸ List.mem_cons_self), State.expireUser, same,
            AList.lookup_erase]
        · rw [if_neg later, if_neg (by simp [same, later]), State.expireUser,
            AList.lookup_erase_ne same]

end Balance

section Steps

variable {Time : Type} [Add Time] [LT Time] [DecidableLT Time]
variable {opt : Options Time} {extra : MacAddr → Nat} {state : State Time}

theorem mem_expiredUsers {now : Time} {macAddr : MacAddr} :
    macAddr ∈ state.expiredUsers opt now ↔
      ∃ response, state.knownUsers.lookup macAddr = some response ∧
        isValidAcceptance opt now response = false := by
  rw [State.expiredUsers, List.mem_map]
  constructor
  · intro listed
    obtain ⟨entry, member, rfl⟩ := listed
    obtain ⟨stored, expired⟩ := List.mem_filter.mp member
    exact ⟨entry.2, AList.mem_lookup_iff.mpr stored, by simpa using expired⟩
  · intro listed
    obtain ⟨response, stored, expired⟩ := listed
    refine ⟨⟨macAddr, response⟩, List.mem_filter.mpr ⟨AList.mem_lookup_iff.mp stored, ?_⟩, rfl⟩
    rw [expired]
    rfl

theorem expiredUsers_nodup (now : Time) : (state.expiredUsers opt now).Nodup := by
  have sublist : (state.expiredUsers opt now).Sublist state.knownUsers.keys :=
    List.Sublist.map _ List.filter_sublist
  exact sublist.nodup state.knownUsers.keys_nodup

theorem Balanced.expireCache (live : opt.dryRun = false) (balanced : Balanced extra state)
    (now : Time) : Balanced extra (expireCache opt now state) := by
  apply balanced.expireUsers live (expiredUsers_nodup now)
  intro macAddr expired
  obtain ⟨response, stored, _⟩ := mem_expiredUsers.mp expired
  exact AList.lookup_isSome.mp (Option.isSome_iff_exists.mpr ⟨response, stored⟩)

/-- The users that are left are those whose acceptance is still valid. -/
theorem lookup_expireCache (now : Time) (macAddr : MacAddr) :
    (expireCache opt now state).knownUsers.lookup macAddr = state.cached opt now macAddr := by
  rw [Bouncer.expireCache, lookup_expireUsers, State.cached]
  cases stored : state.knownUsers.lookup macAddr with
  | none => simp
  | some response =>
      cases valid : isValidAcceptance opt now response with
      | false =>
          have expired : macAddr ∈ state.expiredUsers opt now :=
            mem_expiredUsers.mpr ⟨response, stored, valid⟩
          rw [if_pos expired, Option.filter_some_neg (by simp [valid])]
      | true =>
          have kept : macAddr ∉ state.expiredUsers opt now := by
            intro expired
            obtain ⟨other, same, invalid⟩ := mem_expiredUsers.mp expired
            cases stored.symm.trans same
            rw [valid] at invalid
            cases invalid
          rw [if_neg kept, Option.filter_some_pos valid]

/-- The address whose acceptance the server grants in a step. -/
def granted (opt : Options Time) (state : State Time) : Event Time → Option MacAddr
  | .accept line now answer later => do
      let macAddr ← normalizeMacAddr (Text.strip line)
      if (state.cached opt now macAddr).isSome then none
      else (answer.granted opt later).map fun _ => macAddr
  | .check macAddr answer now => (answer.granted opt now).map fun _ => macAddr
  | .expire _ => none

def Renews (opt : Options Time) (macAddr : MacAddr) (entry : State Time × Event Time) : Prop :=
  granted opt entry.1 entry.2 = some macAddr ∧ macAddr ∈ entry.1.knownUsers

instance (macAddr : MacAddr) : DecidablePred (Renews opt macAddr) := fun _ =>
  inferInstanceAs (Decidable (_ ∧ _))

/-- No user is accepted anew that is still among the known ones. -/
def Fresh (opt : Options Time) (state : State Time) (event : Event Time) : Prop :=
  ∀ macAddr, granted opt state event = some macAddr → macAddr ∉ state.knownUsers

/-- How often a user has been renewed. -/
def renewals (opt : Options Time) (trace : List (State Time × Event Time)) (macAddr : MacAddr) : Nat :=
  trace.countP fun entry => Renews opt macAddr entry

/-- What is known of the users, and the firewall, are as before. -/
def Unchanged (state next : State Time) : Prop :=
  next.firewall = state.firewall ∧
    ∀ macAddr, macAddr ∈ next.knownUsers ↔ macAddr ∈ state.knownUsers

/-- The user is known now, and its rule has been added. -/
def Added (opt : Options Time) (macAddr : MacAddr) (state next : State Time) : Prop :=
  next.firewall = updateChains opt .append macAddr state.firewall ∧
    ∀ other, other ∈ next.knownUsers ↔ other = macAddr ∨ other ∈ state.knownUsers

theorem check_granted {macAddr : MacAddr} {answer : Answer Time} {now : Time}
    {response : Response Time} (grants : answer.granted opt now = some response) (tries : Nat) :
    Added opt macAddr state (check opt macAddr tries answer now state) := by
  unfold check
  rw [grants]
  exact ⟨rfl, fun other => AList.mem_insert state.knownUsers⟩

theorem check_refused {answer : Answer Time} {now : Time} (refused : answer.granted opt now = none)
    (macAddr : MacAddr) (tries : Nat) :
    Unchanged state (check opt macAddr tries answer now state) := by
  unfold check
  rw [refused]
  cases answer with
  | response object => exact ⟨rfl, fun _ => Iff.rfl⟩
  | httpError => exact ⟨rfl, fun _ => Iff.rfl⟩
  | malformed =>
      dsimp only [State.abandon]
      split
      · exact ⟨rfl, fun _ => Iff.rfl⟩
      · exact ⟨rfl, fun _ => Iff.rfl⟩

theorem accept_state {line : Text} {macAddr : MacAddr} {now : Time}
    (normal : normalizeMacAddr (Text.strip line) = some macAddr)
    (unknown : state.cached opt now macAddr = none) (answer : Answer Time) (later : Time) :
    (accept opt line now answer later state).2 =
      check opt macAddr ((state.inProgressUsers.lookup macAddr).getD 0) answer later state := by
  rw [accept, normal]
  dsimp only
  rw [unknown]
  cases answer with
  | response object => rfl
  | httpError => rfl
  | malformed => rfl

theorem known_of_cached {now : Time} {macAddr : MacAddr} {response : Response Time}
    (cached : state.cached opt now macAddr = some response) : macAddr ∈ state.knownUsers := by
  rw [State.cached] at cached
  obtain ⟨stored, _⟩ := Option.filter_eq_some_iff.mp cached
  exact AList.lookup_isSome.mp (Option.isSome_iff_exists.mpr ⟨response, stored⟩)

theorem accept_cached {line : Text} {macAddr : MacAddr} {now : Time} {response : Response Time}
    (normal : normalizeMacAddr (Text.strip line) = some macAddr)
    (cached : state.cached opt now macAddr = some response) (answer : Answer Time) (later : Time) :
    Unchanged state (accept opt line now answer later state).2 := by
  rw [accept, normal]
  dsimp only
  rw [cached]
  refine ⟨rfl, fun other => ?_⟩
  rw [AList.mem_insert]
  constructor
  · intro either
    cases either with
    | inl same => exact same ▸ known_of_cached cached
    | inr member => exact member
  · exact Or.inr

/-- A step other than a removal adds the user whose acceptance is granted, if there is one. -/
theorem step_cases {event : Event Time} {next : State Time} (step : Step opt state event next) :
    (∃ macAddr, granted opt state event = some macAddr ∧ Added opt macAddr state next) ∨
      granted opt state event = none ∧
        (Unchanged state next ∨ ∃ now, event = .expire now ∧ next = expireCache opt now state) := by
  cases step with
  | @accept line now later answer =>
      cases normal : normalizeMacAddr (Text.strip line) with
      | none =>
          have same : (accept opt line now answer later state).2 = state := by
            rw [accept, normal]
          rw [same]
          exact Or.inr ⟨by simp [granted, normal], Or.inl ⟨rfl, fun _ => Iff.rfl⟩⟩
      | some macAddr =>
          cases cached : state.cached opt now macAddr with
          | some response =>
              refine Or.inr ⟨by simp [granted, normal, cached], Or.inl ?_⟩
              exact accept_cached normal cached answer later
          | none =>
              rw [accept_state normal cached]
              cases grants : answer.granted opt later with
              | some response =>
                  refine Or.inl ⟨macAddr, by simp [granted, normal, cached, grants], ?_⟩
                  exact check_granted grants _
              | none =>
                  refine Or.inr ⟨by simp [granted, normal, grants], Or.inl ?_⟩
                  exact check_refused grants macAddr _
  | @check macAddr tries answer now polling =>
      cases grants : answer.granted opt now with
      | some response =>
          exact Or.inl ⟨macAddr, by simp [granted, grants], check_granted grants tries⟩
      | none =>
          exact Or.inr ⟨by simp [granted, grants], Or.inl (check_refused grants macAddr tries)⟩
  | @expire now => exact Or.inr ⟨rfl, Or.inr ⟨now, rfl, rfl⟩⟩

theorem renewals_snoc (trace : List (State Time × Event Time)) (entry : State Time × Event Time)
    (macAddr : MacAddr) : renewals opt (trace ++ [entry]) macAddr =
      renewals opt trace macAddr + if Renews opt macAddr entry then 1 else 0 := by
  simp [renewals, List.countP_append, List.countP_cons]

theorem Balanced.step (live : opt.dryRun = false) {event : Event Time} {next : State Time}
    (balanced : Balanced extra state) (step : Step opt state event next) :
    Balanced (fun macAddr => extra macAddr + if Renews opt macAddr (state, event) then 1 else 0)
      next := by
  cases step_cases step with
  | inl adds =>
      obtain ⟨macAddr, grants, firewall, known⟩ := adds
      intro command chain other
      rw [firewall, rules_append live, balanced command chain other]
      by_cases same : other = macAddr
      · simp only [Renews, grants, known, same, true_or, true_and, if_true]
        omega
      · have different : macAddr ≠ other := fun equal => same equal.symm
        simp [Renews, grants, known, same, different]
  | inr rest =>
      obtain ⟨grants, either⟩ := rest
      have unrenewed (macAddr : MacAddr) : ¬Renews opt macAddr (state, event) := by
        intro renews
        rw [Renews, grants] at renews
        cases renews.1
      simp only [unrenewed, if_false, Nat.add_zero]
      cases either with
      | inl unchanged => exact balanced.same unchanged.1 unchanged.2
      | inr expired =>
          obtain ⟨now, _, same⟩ := expired
          rw [same]
          exact balanced.expireCache live now

theorem balanced_run (live : opt.dryRun = false) {trace : List (State Time × Event Time)}
    (run : Run (Step opt) .start trace state) : Balanced (renewals opt trace) state := by
  induction run with
  | nil => exact balanced_start
  | snoc _ step ih =>
      intro command chain macAddr
      rw [renewals_snoc]
      exact ih.step live step command chain macAddr

/-- Each chain has exactly one rule for each user whose acceptance is valid, and none for any
other address. -/
def Matched (opt : Options Time) (now : Time) (state : State Time) : Prop :=
  ∀ command chain macAddr, state.firewall.rules command chain macAddr =
    if (state.cached opt now macAddr).isSome then 1 else 0

theorem cached_expireCache (now : Time) (macAddr : MacAddr) :
    (expireCache opt now state).cached opt now macAddr = state.cached opt now macAddr := by
  rw [State.cached, lookup_expireCache, State.cached, Option.filter_filter]
  simp

theorem matched_iff_of_balanced (now : Time) (balanced : Balanced extra (expireCache opt now state)) :
    Matched opt now (expireCache opt now state) ↔ ∀ macAddr, extra macAddr = 0 := by
  have known (macAddr : MacAddr) : macAddr ∈ (expireCache opt now state).knownUsers ↔
      ((expireCache opt now state).cached opt now macAddr).isSome := by
    rw [cached_expireCache, ← lookup_expireCache, AList.lookup_isSome]
  constructor
  · intro matched macAddr
    have rules := matched .iptables .filter macAddr
    rw [balanced .iptables .filter macAddr] at rules
    simp only [known] at rules
    omega
  · intro none command chain macAddr
    rw [balanced command chain macAddr]
    simp only [known, none macAddr, Nat.add_zero]

theorem renewals_eq_zero {trace : List (State Time × Event Time)} :
    (∀ macAddr, renewals opt trace macAddr = 0) ↔ StepsMeet (Fresh opt) trace := by
  simp only [renewals, List.countP_eq_zero, decide_eq_true_eq]
  constructor
  · intro unrenewed entry member macAddr grants known
    exact unrenewed macAddr entry member ⟨grants, known⟩
  · intro fresh macAddr entry member renews
    exact fresh entry member macAddr renews.1 renews.2

/-- After a removal the chains match the known users exactly when no user has been accepted
again, up to then, while its expired acceptance was still there. -/
theorem chains_matched_iff (live : opt.dryRun = false) {trace : List (State Time × Event Time)}
    (run : Run (Step opt) .start trace state) (now : Time) :
    Matched opt now (expireCache opt now state) ↔ StepsMeet (Fresh opt) trace := by
  rw [matched_iff_of_balanced now ((balanced_run live run).expireCache live now), renewals_eq_zero]

end Steps

section Example

def exampleMacAddr : MacAddr :=
  ⟨"00:1a:11:aa:bb:cc".toList, by decide, by decide⟩

def exampleLine : Text :=
  "00:1A:11:Aa:bB:cc\n".toList

/-- One day counts, in seconds. -/
def exampleOptions : Options Nat :=
  ⟨false, 86400⟩

def afterLogin : State Nat :=
  (accept exampleOptions exampleLine 1000 (.response ⟨900, false⟩) 1000 .start).2

theorem chains_matched_login :
    Matched exampleOptions 2000 (expireCache exampleOptions 2000 afterLogin) := by
  have run : Run (Step exampleOptions) .start
      [(.start, .accept exampleLine 1000 (.response ⟨900, false⟩) 1000)] afterLogin :=
    Run.nil.snoc .accept
  refine (chains_matched_iff rfl run 2000).mpr ?_
  intro entry member macAddr _
  rw [List.mem_singleton.mp member]
  exact AList.notMem_empty macAddr

/-- The user is accepted again after a day, before the removal that comes each hour. -/
def afterRenewal : State Nat :=
  (accept exampleOptions exampleLine 90000 (.response ⟨89000, false⟩) 90001 afterLogin).2

/-- There are two rules for the user after the next removal, and one after it has expired. -/
theorem renewal_not_matched :
    (∃ trace, Run (Step exampleOptions) .start trace afterRenewal) ∧
      ¬Matched exampleOptions 91000 (expireCache exampleOptions 91000 afterRenewal) ∧
      ¬Matched exampleOptions 200000 (expireCache exampleOptions 200000 afterRenewal) := by
  refine ⟨⟨_, (Run.nil.snoc .accept).snoc .accept⟩, fun matched => ?_, fun matched => ?_⟩
  · have rules := matched .iptables .filter exampleMacAddr
    revert rules
    decide +kernel
  · have rules := matched .iptables .filter exampleMacAddr
    revert rules
    decide +kernel

end Example

end Gfiber.Bouncer
