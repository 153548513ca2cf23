import Gfiber.Lib.Run
import Gfiber.Waveguide.AutoDisable

/-! No two access points shut each other down: one that is shut down yields to
one that is high-powered and therefore never shut down itself. -/

set_option autoImplicit false

namespace Gfiber.Waveguide.AutoDisable

open Lib

def HighPower (flags : Nat) : Prop :=
  flags &&& ApFlags.highPower ≠ 0

/-- The two have a band in common. -/
def Overlap (left right : Nat) : Prop :=
  left &&& right &&& ApFlags.canMask ≠ 0

instance (flags : Nat) : Decidable (HighPower flags) :=
  inferInstanceAs (Decidable (_ ≠ _))

instance (left right : Nat) : Decidable (Overlap left right) :=
  inferInstanceAs (Decidable (_ ≠ _))

theorem highPower_or {flags bits : Nat}
    (bands : bits ∈ [0, ApFlags.can2G, ApFlags.can5G, ApFlags.can2G ||| ApFlags.can5G]) :
    HighPower (flags ||| bits) ↔ HighPower flags := by
  have apart : bits &&& ApFlags.highPower = 0 := by
    rcases (by simpa using bands) with rfl | rfl | rfl | rfl <;> rfl
  unfold HighPower
  rw [Nat.and_or_distrib_right, apart, Nat.or_zero]

theorem Overlap.or {left right : Nat} (overlap : Overlap left right) (bits : Nat) :
    Overlap (left ||| bits) right := by
  unfold Overlap at overlap ⊢
  rw [Nat.and_or_distrib_right, Nat.and_or_distrib_right]
  intro none
  exact overlap (Nat.or_eq_zero_iff.mp none).1

section Choice

variable {Key : Type} {opt : Options} {time : ℚ} {m next : WlanManager Key} {peer : Me Key}
  {peers : List (Me Key)}

/-- A peer that a scan has shown, near and not long ago, and that has itself
been heard not long ago as a high-powered one on a band of the manager's. -/
structure WlanManager.Overwhelmed (m : WlanManager Key) (opt : Options) (time : ℚ)
    (peer : Me Key) : Prop where
  scanned : ∃ bss, m.bssList.lookup peer.mac = some bss ∧
    (∃ rssi, bss.rssi = some rssi ∧ opt.autoDisableThreshold < rssi) ∧
    ∃ lastSeen, bss.lastSeen = some lastSeen ∧
      (opt.scanInterval = 0 ∨ time - lastSeen ≤ opt.scanInterval * 4)
  heard : time - peer.now ≤ opt.txInterval * 4
  power : HighPower peer.flags
  overlap : Overlap m.flags peer.flags

theorem not_isFar_iff {bss : Bss} : isFar opt bss = false ↔
    ∃ rssi, bss.rssi = some rssi ∧ opt.autoDisableThreshold < rssi := by
  unfold isFar
  cases bss.rssi with
  | none => simp
  | some rssi => simp

theorem not_isOld_iff {peerAgeSecs scanAgeSecs : ℚ} :
    isOld opt peerAgeSecs scanAgeSecs = false ↔ peerAgeSecs ≤ opt.txInterval * 4 ∧
      (opt.scanInterval = 0 ∨ scanAgeSecs ≤ opt.scanInterval * 4) := by
  unfold isOld
  by_cases never : opt.scanInterval = 0 <;> simp [never]

theorem overwhelmedBy_iff {bss : Bss} {answer : Bool}
    (shown : m.bssList.lookup peer.mac = some bss)
    (judged : m.overwhelmedBy opt time peer bss = .ok answer) :
    answer = true ↔ m.Overwhelmed opt time peer := by
  unfold WlanManager.overwhelmedBy at judged
  cases seen : bss.lastSeen with
  | none => simp [seen] at judged
  | some lastSeen =>
      rw [seen] at judged
      have same := Except.ok.inj judged
      subst same
      constructor
      · intro yes
        by_cases far : isFar opt bss
        · simp [far] at yes
        by_cases weak : peer.flags &&& ApFlags.highPower = 0
        · simp [far, weak] at yes
        by_cases apart : m.flags &&& peer.flags &&& ApFlags.canMask = 0
        · simp [far, weak, apart] at yes
        by_cases old : isOld opt (time - peer.now) (time - lastSeen)
        · simp [far, weak, apart, old] at yes
        obtain ⟨heard, recent⟩ := not_isOld_iff.mp (Bool.eq_false_iff.mpr old)
        exact ⟨⟨bss, shown, not_isFar_iff.mp (Bool.eq_false_iff.mpr far), lastSeen, seen, recent⟩,
          heard, weak, apart⟩
      · rintro ⟨⟨other, again, near, instant, known, recent⟩, heard, power, overlap⟩
        have same : other = bss := Option.some.inj (again.symm.trans shown)
        subst same
        have same : instant = lastSeen := Option.some.inj (known.symm.trans seen)
        subst same
        rw [if_neg (Bool.eq_false_iff.mp (not_isFar_iff.mpr near)), if_neg power, if_neg overlap,
          if_neg (Bool.eq_false_iff.mp (not_isOld_iff.mpr ⟨heard, recent⟩))]

/-- What the choice is among the peers in their order. -/
def FirstOf (m : WlanManager Key) (opt : Options) (time : ℚ) (peers : List (Me Key)) :
    Option Mac → Prop
  | none => ∀ peer ∈ peers, ¬m.Overwhelmed opt time peer
  | some mac => ∃ earlier peer later, peers = earlier ++ peer :: later ∧ peer.mac = mac ∧
      m.Overwhelmed opt time peer ∧ ∀ other ∈ earlier, ¬m.Overwhelmed opt time other

theorem FirstOf.cons {ad : Option Mac} (first : FirstOf m opt time peers ad)
    (passed : ¬m.Overwhelmed opt time peer) : FirstOf m opt time (peer :: peers) ad := by
  cases ad with
  | none => exact List.forall_mem_cons.mpr ⟨passed, first⟩
  | some mac =>
      obtain ⟨earlier, chosen, later, rfl, same, overwhelmed, none⟩ := first
      exact ⟨peer :: earlier, chosen, later, rfl, same, overwhelmed,
        List.forall_mem_cons.mpr ⟨passed, none⟩⟩

theorem considerPeers_first {ad : Option Mac}
    (chosen : m.considerPeers opt time peers = .ok ad) : FirstOf m opt time peers ad := by
  induction peers with
  | nil =>
      have none : ad = none := (Except.ok.inj chosen).symm
      subst none
      exact fun _ member => absurd member (List.not_mem_nil)
  | cons peer peers ih =>
      unfold WlanManager.considerPeers at chosen
      cases shown : m.bssList.lookup peer.mac with
      | none =>
          rw [shown] at chosen
          refine (ih chosen).cons fun overwhelmed => ?_
          obtain ⟨bss, found, -⟩ := overwhelmed.scanned
          exact absurd (found.symm.trans shown) (Option.some_ne_none bss)
      | some bss =>
          rw [shown] at chosen
          cases judged : m.overwhelmedBy opt time peer bss with
          | error exn => simp [judged] at chosen
          | ok answer =>
              have exact_answer := overwhelmedBy_iff shown judged
              cases answer with
              | true =>
                  simp only [judged, Except.ok.injEq] at chosen
                  subst chosen
                  exact ⟨[], peer, peers, rfl, rfl, exact_answer.mp rfl, by simp⟩
              | false =>
                  simp only [judged] at chosen
                  exact (ih chosen).cons fun overwhelmed =>
                    Bool.false_ne_true (exact_answer.mpr overwhelmed)

theorem mem_sortedPeers {peerList : AList fun _ : Mac => Me Key} :
    peer ∈ sortedPeers peerList ↔ ∃ mac, peerList.lookup mac = some peer := by
  unfold sortedPeers
  rw [List.mem_insertionSort, List.mem_map]
  constructor
  · rintro ⟨⟨mac, held⟩, member, rfl⟩
    exact ⟨mac, AList.mem_lookup_iff.mpr member⟩
  · rintro ⟨mac, found⟩
    exact ⟨⟨mac, peer⟩, AList.mem_lookup_iff.mp found, rfl⟩

theorem sortedPeers_pairwise (peerList : AList fun _ : Mac => Me Key) :
    (sortedPeers peerList).Pairwise fun left right => left.mac.key ≤ right.mac.key := by
  have total : Std.Total fun left right : Me Key => left.mac.key ≤ right.mac.key :=
    ⟨fun left right => le_total left.mac.key right.mac.key⟩
  have trans : IsTrans (Me Key) fun left right => left.mac.key ≤ right.mac.key :=
    ⟨fun _ _ _ first second => le_trans first second⟩
  exact List.pairwise_insertionSort _ _

/-- What one choice leaves: nothing but the choice itself changes. -/
structure Chosen (opt : Options) (time : ℚ) (m next : WlanManager Key) : Prop where
  mac : next.mac = m.mac
  flags : next.flags = m.flags
  bssList : next.bssList = m.bssList
  peerList : next.peerList = m.peerList
  file : next.disabledFile = m.disabledFileFor next.autoDisabled
  first : if HighPower m.flags then next.autoDisabled = none
    else FirstOf m opt time (sortedPeers m.peerList) next.autoDisabled

theorem maybeAutoDisable_chosen (chosen : m.maybeAutoDisable opt time = .ok next) :
    Chosen opt time m next := by
  unfold WlanManager.maybeAutoDisable at chosen
  cases judged : m.shouldAutoDisable opt time with
  | error exn => simp [judged, bind, Except.bind] at chosen
  | ok ad =>
      simp only [judged, bind, Except.bind, pure, Except.pure, Except.ok.injEq] at chosen
      subst chosen
      refine ⟨rfl, rfl, rfl, rfl, rfl, ?_⟩
      unfold WlanManager.shouldAutoDisable at judged
      change (if HighPower m.flags then _ else _) = _ at judged
      by_cases power : HighPower m.flags
      · rw [if_pos power] at judged ⊢
        exact (Except.ok.inj judged).symm
      · rw [if_neg power] at judged ⊢
        exact considerPeers_first judged

theorem Chosen.file_kept (chosen : Chosen opt time m next)
    (file : m.disabledFile = m.autoDisabled.map decodeMac) :
    next.disabledFile = next.autoDisabled.map decodeMac := by
  rw [chosen.file]
  unfold WlanManager.disabledFileFor
  cases next.autoDisabled with
  | none =>
      by_cases before : m.autoDisabled.isSome
      · rw [if_pos before]
        rfl
      · rw [if_neg before, file, Option.not_isSome_iff_eq_none.mp before]
  | some mac =>
      by_cases same : m.autoDisabled = some mac
      · simp only [ne_eq, same, not_true_eq_false, if_false, file]
      · simp only [ne_eq, same, not_false_eq_true, if_true, Option.map_some]

/-- A choice that disables does so for a peer that overwhelms the manager. -/
theorem Chosen.overwhelmed (chosen : Chosen opt time m next) {mac : Mac}
    (disabled : next.autoDisabled = some mac) :
    ∃ peer ∈ sortedPeers m.peerList, peer.mac = mac ∧ m.Overwhelmed opt time peer := by
  have first := chosen.first
  rw [disabled] at first
  by_cases power : HighPower m.flags
  · rw [if_pos power] at first
    exact absurd first (Option.some_ne_none mac)
  · rw [if_neg power] at first
    obtain ⟨earlier, peer, later, whole, same, overwhelmed, -⟩ := first
    exact ⟨peer, whole ▸ List.mem_append_right earlier List.mem_cons_self, same, overwhelmed⟩

/-- A packet is ignored, or its sender becomes a peer and the choice is made. -/
theorem readReady_cases [DecidableEq Key] {gettime : ℚ} {consensus after : Consensus Key}
    (read : m.readReady opt time gettime consensus peer = .ok (after, next)) :
    (peer.mac = m.mac ∨ peer.consensusKey ≠ after.key) ∧ next = m ∨
      ¬(peer.mac = m.mac ∨ peer.consensusKey ≠ after.key) ∧
        Chosen opt time { m with peerList := m.peerList.insert peer.mac peer } next := by
  unfold WlanManager.readReady at read
  dsimp only at read
  split at read
  case isTrue own =>
    cases read
    exact .inl ⟨.inl own, rfl⟩
  case isFalse other =>
    split at read
    case isTrue foreign =>
      cases read
      exact .inl ⟨.inr foreign, rfl⟩
    case isFalse shared =>
      cases judged : WlanManager.maybeAutoDisable opt time
          { m with peerList := m.peerList.insert peer.mac peer } with
      | error exn => simp [judged, bind, Except.bind] at read
      | ok result =>
          rw [judged] at read
          cases read
          exact .inr ⟨not_or.mpr ⟨other, shared⟩, maybeAutoDisable_chosen judged⟩

/-- The address that a manager yields to when it yields at all. -/
structure WlanManager.Foremost (m : WlanManager Key) (opt : Options) (time : ℚ) (mac : Mac) :
    Prop where
  overwhelmed : ∃ peer, m.peerList.lookup mac = some peer ∧ m.Overwhelmed opt time peer
  lowest : ∀ other peer, m.peerList.lookup other = some peer →
    m.Overwhelmed opt time peer → mac.key ≤ other.key

theorem Mac.key_injective {left right : Mac} (same : left.key = right.key) : left = right := by
  have bytes := List.map_injective_iff.mpr (fun _ _ => BitVec.eq_of_toNat_eq) same
  exact Vector.toList_inj.mp bytes

section Exactly

variable (keyed : ∀ mac peer, m.peerList.lookup mac = some peer → peer.mac = mac)
include keyed

theorem foremost_of_firstOf {mac : Mac}
    (first : FirstOf m opt time (sortedPeers m.peerList) (some mac)) : m.Foremost opt time mac := by
  obtain ⟨earlier, peer, later, whole, rfl, overwhelmed, none⟩ := first
  have listed : peer ∈ sortedPeers m.peerList := by simp [whole]
  obtain ⟨key, found⟩ := mem_sortedPeers.mp listed
  obtain rfl := keyed key peer found
  refine ⟨⟨peer, found, overwhelmed⟩, fun mac other held strong => ?_⟩
  have sorted := sortedPeers_pairwise m.peerList
  have member := mem_sortedPeers.mpr ⟨mac, held⟩
  rw [← keyed mac other held]
  rw [whole] at sorted member
  rcases List.mem_append.mp member with before | after
  · exact absurd strong (none other before)
  · rcases List.mem_cons.mp after with rfl | behind
    · exact le_rfl
    · exact (List.pairwise_cons.mp (List.pairwise_append.mp sorted).2.1).1 other behind

theorem Chosen.disabled_iff (chosen : Chosen opt time m next) {mac : Mac} :
    next.autoDisabled = some mac ↔ ¬HighPower m.flags ∧ m.Foremost opt time mac := by
  have first := chosen.first
  by_cases power : HighPower m.flags
  · rw [if_pos power] at first
    simp [first, power]
  rw [if_neg power] at first
  constructor
  · intro disabled
    exact ⟨power, foremost_of_firstOf keyed (disabled ▸ first)⟩
  · rintro ⟨-, ⟨peer, held, overwhelmed⟩, lowest⟩
    cases disabled : next.autoDisabled with
    | none =>
        rw [disabled] at first
        exact absurd overwhelmed (first peer (mem_sortedPeers.mpr ⟨mac, held⟩))
    | some other =>
        rw [disabled] at first
        obtain ⟨⟨rival, rivalHeld, rivalStrong⟩, below⟩ := foremost_of_firstOf keyed first
        have same := le_antisymm (lowest other rival rivalHeld rivalStrong)
          (below mac peer held overwhelmed)
        rw [Mac.key_injective same]

/-- A manager is shut down by the peer with the lowest address among those that
overwhelm it, and runs when there is none. -/
def WlanManager.Exact (m : WlanManager Key) (opt : Options) (time : ℚ) : Prop :=
  ∀ mac, m.autoDisabled = some mac ↔ ¬HighPower m.flags ∧ m.Foremost opt time mac

theorem Chosen.exactly (chosen : Chosen opt time m next) : next.Exact opt time := by
  intro mac
  rw [chosen.disabled_iff keyed, chosen.flags]
  have same : ∀ peer : Me Key, next.Overwhelmed opt time peer ↔ m.Overwhelmed opt time peer := by
    intro peer
    constructor
    · rintro ⟨scanned, heard, power, overlap⟩
      exact ⟨chosen.bssList ▸ scanned, heard, power, chosen.flags ▸ overlap⟩
    · rintro ⟨scanned, heard, power, overlap⟩
      exact ⟨chosen.bssList.symm ▸ scanned, heard, power, chosen.flags.symm ▸ overlap⟩
  refine and_congr_right fun _ => ⟨fun foremost => ?_, fun foremost => ?_⟩
  · obtain ⟨⟨peer, held, strong⟩, lowest⟩ := foremost
    refine ⟨⟨peer, chosen.peerList.symm ▸ held, (same peer).mpr strong⟩, fun other peer held strong => ?_⟩
    exact lowest other peer (chosen.peerList ▸ held) ((same peer).mp strong)
  · obtain ⟨⟨peer, held, strong⟩, lowest⟩ := foremost
    refine ⟨⟨peer, chosen.peerList ▸ held, (same peer).mp strong⟩, fun other peer held strong => ?_⟩
    exact lowest other peer (chosen.peerList.symm ▸ held) ((same peer).mpr strong)

end Exactly

end Choice

section Managers

variable {Key : Type} {sent : List (Nat × Me Key)} {opt : Options} {time : ℚ}
  {m next : WlanManager Key}

/-- What holds of a manager among the packets that were sent. -/
structure WlanManager.Sound (sent : List (Nat × Me Key)) (m : WlanManager Key) : Prop where
  file : m.disabledFile = m.autoDisabled.map decodeMac
  stays_on : HighPower m.flags → m.autoDisabled = none
  heard : ∀ mac me, m.peerList.lookup mac = some me →
    me.mac = mac ∧ ∃ sender, (sender, me) ∈ sent
  yields : ∀ mac, m.autoDisabled = some mac → ∃ sender me, (sender, me) ∈ sent ∧
    me.mac = mac ∧ HighPower me.flags ∧ Overlap m.flags me.flags

theorem sound_new (highPower tvBox : Bool) :
    (WlanManager.new highPower tvBox : WlanManager Key).Sound sent where
  file := rfl
  stays_on := fun _ => rfl
  heard := fun mac me found => by simp [WlanManager.new] at found
  yields := fun mac disabled => by simp [WlanManager.new] at disabled

namespace WlanManager.Sound

theorem mono {more : List (Nat × Me Key)} (sound : m.Sound sent) (grows : sent ⊆ more) :
    m.Sound more where
  file := sound.file
  stays_on := sound.stays_on
  heard := fun mac me found => by
    obtain ⟨keyed, sender, member⟩ := sound.heard mac me found
    exact ⟨keyed, sender, grows member⟩
  yields := fun mac disabled => by
    obtain ⟨sender, me, member, same, power, overlap⟩ := sound.yields mac disabled
    exact ⟨sender, me, grows member, same, power, overlap⟩

/-- New bands leave the power as it is and common bands common. -/
theorem phyResults {bits : Nat} (sound : m.Sound sent)
    (bands : bits ∈ [0, ApFlags.can2G, ApFlags.can5G, ApFlags.can2G ||| ApFlags.can5G]) :
    Sound sent { m with flags := m.flags ||| bits } where
  file := sound.file
  stays_on := fun power => sound.stays_on ((highPower_or bands).mp power)
  heard := sound.heard
  yields := fun mac disabled => by
    obtain ⟨sender, me, member, same, power, overlap⟩ := sound.yields mac disabled
    exact ⟨sender, me, member, same, power, overlap.or bits⟩

theorem devResults (sound : m.Sound sent) (mac : Mac) : Sound sent { m with mac } :=
  ⟨sound.file, sound.stays_on, sound.heard, sound.yields⟩

theorem scanned (sound : m.Sound sent) (bssList : AList fun _ : Mac => Bss) :
    Sound sent { m with bssList } :=
  ⟨sound.file, sound.stays_on, sound.heard, sound.yields⟩

theorem chosen (sound : m.Sound sent) (chosen : Chosen opt time m next) : next.Sound sent where
  file := chosen.file_kept sound.file
  stays_on := fun power => by
    have first := chosen.first
    rwa [if_pos (chosen.flags ▸ power)] at first
  heard := fun mac me found => sound.heard mac me (chosen.peerList ▸ found)
  yields := fun mac disabled => by
    obtain ⟨peer, member, same, overwhelmed⟩ := chosen.overwhelmed disabled
    obtain ⟨key, found⟩ := mem_sortedPeers.mp member
    obtain ⟨-, sender, sent⟩ := sound.heard key peer found
    exact ⟨sender, peer, sent, same, overwhelmed.power, chosen.flags ▸ overwhelmed.overlap⟩

theorem heard_insert {sender : Nat} {me : Me Key} (sound : m.Sound sent)
    (was_sent : (sender, me) ∈ sent) :
    Sound sent { m with peerList := m.peerList.insert me.mac me } where
  file := sound.file
  stays_on := sound.stays_on
  heard := by
    intro mac other found
    by_cases same : mac = me.mac
    · subst same
      rw [AList.lookup_insert] at found
      cases found
      exact ⟨rfl, sender, was_sent⟩
    · rw [AList.lookup_insert_ne same] at found
      exact sound.heard mac other found
  yields := sound.yields

theorem readReady [DecidableEq Key] {gettime : ℚ} {consensus after : Consensus Key}
    {packet : Nat × Me Key} (sound : m.Sound sent) (was_sent : packet ∈ sent)
    (read : m.readReady opt time gettime consensus packet.2 = .ok (after, next)) :
    next.Sound sent ∧ (HighPower m.flags → HighPower next.flags) := by
  rcases readReady_cases read with ⟨-, rfl⟩ | ⟨-, exactly⟩
  · exact ⟨sound, id⟩
  · exact ⟨(sound.heard_insert was_sent).chosen exactly, fun power => exactly.flags ▸ power⟩

theorem keyed (sound : m.Sound sent) :
    ∀ mac peer, m.peerList.lookup mac = some peer → peer.mac = mac :=
  fun mac peer held => (sound.heard mac peer held).1

end WlanManager.Sound

end Managers

section Networks

variable {Key : Type} [DecidableEq Key]

namespace Network

/-- A high-powered manager keeps the power it had when it sent a packet. -/
structure Sound (net : Network Key) : Prop where
  managers : ∀ m ∈ net.managers, m.Sound net.sent
  authentic : ∀ sender me, (sender, me) ∈ net.sent → HighPower me.flags →
    ∃ m, net.managers[sender]? = some m ∧ HighPower m.flags

/-- The status files show who is shut down. A high-powered manager never is, and
each that is yields to one that sent a packet, is high-powered, and stays on. -/
structure Safe (net : Network Key) : Prop where
  file : ∀ m ∈ net.managers, m.disabledFile = m.autoDisabled.map decodeMac
  stays_on : ∀ m ∈ net.managers, HighPower m.flags → m.autoDisabled = none
  yields : ∀ index m mac, net.managers[index]? = some m → m.autoDisabled = some mac →
    ∃ sender other me, (sender, me) ∈ net.sent ∧ me.mac = mac ∧ Overlap m.flags me.flags ∧
      net.managers[sender]? = some other ∧ HighPower other.flags ∧
      other.autoDisabled = none ∧ sender ≠ index

variable {net : Network Key} {index : Nat} {m next : WlanManager Key}

omit [DecidableEq Key] in
theorem Sound.safe (sound : net.Sound) : net.Safe where
  file := fun m member => (sound.managers m member).file
  stays_on := fun m member => (sound.managers m member).stays_on
  yields := by
    intro index m mac live disabled
    have here := sound.managers m (List.mem_of_getElem? live)
    obtain ⟨sender, me, sent, same, power, overlap⟩ := here.yields mac disabled
    obtain ⟨other, found, strong⟩ := sound.authentic sender me sent power
    have enabled := (sound.managers other (List.mem_of_getElem? found)).stays_on strong
    refine ⟨sender, other, me, sent, same, overlap, found, strong, enabled, ?_⟩
    rintro rfl
    have same : other = m := Option.some.inj (found.symm.trans live)
    subst same
    exact Option.some_ne_none mac (disabled.symm.trans enabled)

omit [DecidableEq Key] in
/-- A step of one manager that does not lower its power. -/
theorem Sound.set (sound : net.Sound) (live : net.managers[index]? = some m)
    (after : next.Sound net.sent) (power : HighPower m.flags → HighPower next.flags) :
    Sound { net with managers := net.managers.set index next } where
  managers := by
    intro other member
    rcases List.mem_or_eq_of_mem_set member with old | rfl
    · exact sound.managers other old
    · exact after
  authentic := by
    intro sender me sent strong
    obtain ⟨other, found, was⟩ := sound.authentic sender me sent strong
    by_cases same : index = sender
    · subst same
      have same : other = m := Option.some.inj (found.symm.trans live)
      subst same
      have inside := (List.getElem?_eq_some_iff.mp live).1
      exact ⟨next, List.getElem?_set_self inside, power was⟩
    · exact ⟨other, by rwa [List.getElem?_set_ne same], was⟩

theorem sound_step {net after : Network Key} {event : Event} (sound : net.Sound)
    (step : Step net event after) : after.Sound := by
  cases step with
  | join =>
      refine ⟨fun m member => ?_, fun sender me sent strong => ?_⟩
      · rcases List.mem_append.mp member with old | new
        · exact sound.managers m old
        · rw [List.mem_singleton.mp new]
          exact sound_new _ _
      · obtain ⟨m, found, was⟩ := sound.authentic sender me sent strong
        have inside := (List.getElem?_eq_some_iff.mp found).1
        exact ⟨m, by rwa [List.getElem?_append_left inside], was⟩
  | phyResults live bands =>
      have here := sound.managers _ (List.mem_of_getElem? live)
      exact sound.set live (here.phyResults bands) (highPower_or bands).mpr
  | devResults live =>
      have here := sound.managers _ (List.mem_of_getElem? live)
      exact sound.set live (here.devResults _) id
  | scanResults live chosen =>
      have here := sound.managers _ (List.mem_of_getElem? live)
      have exactly := maybeAutoDisable_chosen chosen
      exact sound.set live ((here.scanned _).chosen exactly) fun power => exactly.flags ▸ power
  | sendUpdate live =>
      refine ⟨fun m member => ?_, fun sender me sent strong => ?_⟩
      · exact (sound.managers m member).mono (List.subset_cons_self _ _)
      · rcases List.mem_cons.mp sent with new | old
        · cases new
          exact ⟨_, live, strong⟩
        · exact sound.authentic sender me old strong
  | readReady live was_sent read =>
      have here := sound.managers _ (List.mem_of_getElem? live)
      exact sound.set live (here.readReady was_sent read).1 (here.readReady was_sent read).2

theorem run_sound {trace : List (Network Key × Event)} {finish : Network Key}
    (run : Run Step initial trace finish) : Throughout Sound trace finish := by
  have initially : (initial : Network Key).Sound :=
    ⟨fun m member => absurd member (List.not_mem_nil), fun _ _ sent => absurd sent (List.not_mem_nil)⟩
  have always : StepsMeet (fun (_ : Network Key) (_ : Event) => True) trace := fun _ _ => trivial
  exact run.throughout initially (fun sound _ step => sound_step sound step) always

/-- Whatever is sent, lost, repeated or late, and whatever the scans show. -/
theorem never_all_shut_down {trace : List (Network Key × Event)} {finish : Network Key}
    (run : Run Step initial trace finish) : Throughout Safe trace finish := by
  obtain ⟨earlier, last⟩ := run_sound run
  exact ⟨fun entry member => (earlier entry member).safe, last.safe⟩

/-- After a scan, and after each packet that is not ignored, a manager that a run
has reached is shut down exactly when it should be for what it then knows. -/
theorem chooses_exactly {trace : List (Network Key × Event)} {net : Network Key}
    (run : Run Step initial trace net) {index : Nat} {m : WlanManager Key}
    (live : net.managers[index]? = some m) (opt : Options) (time : ℚ) :
    (∀ scanned next, m.scanResults opt time scanned = .ok next → next.Exact opt time) ∧
      ∀ gettime consensus after packet next, packet ∈ net.sent →
        m.readReady opt time gettime consensus packet.2 = .ok (after, next) →
        if packet.2.mac = m.mac ∨ packet.2.consensusKey ≠ after.key then next = m
        else next.Exact opt time := by
  have sound := (run_sound run).2.managers m (List.mem_of_getElem? live)
  constructor
  · intro scanned next chosen
    exact (maybeAutoDisable_chosen chosen).exactly (sound.scanned _).keyed
  · intro gettime consensus after packet next was_sent read
    rcases readReady_cases read with ⟨ignored, same⟩ | ⟨taken, chosen⟩
    · rw [if_pos ignored, same]
    · rw [if_neg taken]
      exact chosen.exactly (sound.heard_insert was_sent).keyed

end Network

end Networks

section Yielding

def strongMac : Mac := #v[0x11, 0x22, 0x33, 0x44, 0x55, 0x66]

def strong : WlanManager Nat :=
  { WlanManager.new true false with mac := strongMac, flags := 0x11 }

def near : Bss :=
  ⟨some (-20), some 100⟩

def weak : WlanManager Nat :=
  { WlanManager.new false false with
    flags := 0x01, bssList := AList.insert strongMac near ∅ }

/-- The low-powered manager after it has heard the high-powered one. -/
def yielded : WlanManager Nat :=
  { weak with
    peerList := AList.insert strongMac (strong.getState 100 0 7) ∅
    autoDisabled := some strongMac
    disabledFile := some (decodeMac strongMac) }

def yielding : Network Nat :=
  ⟨[strong, yielded], [(0, strong.getState 100 0 7)]⟩

def yieldingOptions : Options :=
  ⟨15, 0, -30⟩

theorem weak_heard : weak.readReady yieldingOptions 100 100 ⟨7, 0⟩ (strong.getState 100 0 7) =
    .ok (⟨7, 0⟩, yielded) := by
  have kept : (updateConsensus 100 (some (⟨7, 0⟩ : Consensus Nat)) 0 7).1 = ⟨7, 0⟩ := by
    decide +kernel
  have chosen : WlanManager.shouldAutoDisable yieldingOptions 100
      { weak with peerList := AList.insert strongMac (strong.getState 100 0 7) ∅ } =
      .ok (some strongMac) := by
    decide +kernel
  have made : WlanManager.maybeAutoDisable yieldingOptions 100
      { weak with peerList := AList.insert strongMac (strong.getState 100 0 7) ∅ } =
      .ok yielded := by
    unfold WlanManager.maybeAutoDisable
    rw [chosen]
    rfl
  unfold WlanManager.readReady
  change (if _ then _ else if _ then _ else _) = _
  rw [if_neg (by decide), show (strong.getState 100 0 7).uptimeMs = 0 from rfl,
    show (strong.getState 100 0 7).consensusKey = 7 from rfl, kept, if_neg (by decide)]
  change (WlanManager.maybeAutoDisable yieldingOptions 100
    { weak with peerList := AList.insert strongMac (strong.getState 100 0 7) ∅ } >>= _) = _
  rw [made]
  rfl

theorem yielding_run : ∃ trace, Run Network.Step Network.initial trace yielding := by
  have start : Run (@Network.Step Nat _) Network.initial [] Network.initial := .nil
  have both := (start.snoc (@Network.Step.join Nat _ _ true false)).snoc
    (@Network.Step.join Nat _ _ false false)
  have addressed := both.snoc (@Network.Step.devResults Nat _ _ 0 strongMac _ rfl)
  have strongBand := addressed.snoc (@Network.Step.phyResults Nat _ _ 0 1 _ rfl (by decide))
  have weakBand := strongBand.snoc (@Network.Step.phyResults Nat _ _ 1 1 _ rfl (by decide))
  have scanned := weakBand.snoc
    (@Network.Step.scanResults Nat _ _ 1 yieldingOptions 100 [(strongMac, near)] _ weak rfl rfl)
  have announced := scanned.snoc (@Network.Step.sendUpdate Nat _ _ 0 100 0 7 _ rfl)
  exact ⟨_, announced.snoc (@Network.Step.readReady Nat _ _ 1 yieldingOptions 100 100 ⟨7, 0⟩ ⟨7, 0⟩
    (0, strong.getState 100 0 7) weak yielded rfl (List.mem_singleton_self _) weak_heard)⟩

theorem never_all_shut_down_yielding :
    (∃ m, yielding.managers[1]? = some m ∧ m.autoDisabled = some strongMac) ∧ yielding.Safe := by
  obtain ⟨trace, run⟩ := yielding_run
  exact ⟨⟨yielded, rfl, rfl⟩, (Network.never_all_shut_down run).2⟩

/-- The packet is a minute old, four times the interval, and the manager runs again. -/
def released : WlanManager Nat :=
  { yielded with autoDisabled := none, disabledFile := none }

theorem yielded_scanned : yielded.scanResults yieldingOptions 161 [] = .ok released := by
  have chosen : yielded.shouldAutoDisable yieldingOptions 161 = .ok none := by
    decide +kernel
  unfold WlanManager.scanResults WlanManager.maybeAutoDisable
  change (yielded.shouldAutoDisable yieldingOptions 161 >>= _) = _
  rw [chosen]
  rfl

theorem chooses_exactly_yielding :
    yielded.scanResults yieldingOptions 161 [] = .ok released ∧
      released.Exact yieldingOptions 161 ∧
      ∀ gettime consensus after packet next, packet ∈ yielding.sent →
        yielded.readReady yieldingOptions 161 gettime consensus packet.2 = .ok (after, next) →
        if packet.2.mac = yielded.mac ∨ packet.2.consensusKey ≠ after.key then next = yielded
        else next.Exact yieldingOptions 161 := by
  obtain ⟨trace, run⟩ := yielding_run
  have live : yielding.managers[1]? = some yielded := rfl
  obtain ⟨scans, packets⟩ := Network.chooses_exactly run live yieldingOptions 161
  exact ⟨yielded_scanned, scans [] released yielded_scanned, packets⟩

end Yielding

end Gfiber.Waveguide.AutoDisable
