import Gfiber.Logos.RateLimitProperties

/-! What a message is charged to each bucket, and when that is just what is logged. -/

set_option autoImplicit false

namespace Gfiber.Logos

open Lib

section Calls

/-- The bucket is no reason to refuse the message. -/
def Bucket.Admits (total : Int) (bucket : Bucket) : Prop :=
  bucket.type = .mandatory → total ≤ bucket.available

namespace Limiter

/-- When a message is refused, the mandatory buckets that had room for it are unchanged. -/
def ChargesLogged (limiter : Limiter) (total : Int) : Prop :=
  let (ok, _, next) := limiter.allBucketsHaveRoom total
  ok = false → ∀ (i : Nat) (before after : Bucket), limiter.buckets[i]? = some before →
    next.buckets[i]? = some after → before.type = .mandatory → total ≤ before.available →
      after.available = before.available

/-- The mandatory buckets all have room for the message, or none has. -/
def AllOrNone (limiter : Limiter) (total : Int) : Prop :=
  (∀ bucket ∈ limiter.buckets, bucket.Admits total) ∨
    ∀ bucket ∈ limiter.buckets, bucket.type = .mandatory → bucket.available < total

/-- A bucket after the message, which does not depend on the buckets before it. -/
def charged (limiter : Limiter) (total : Int) (bucket : Bucket) : Bucket :=
  (limiter.charge total bucket ⟨true, false, 0, []⟩).1

variable {limiter : Limiter} {total : Int}

theorem charge_fst (bucket : Bucket) (room : Room) :
    (limiter.charge total bucket room).1 = limiter.charged total bucket := by
  unfold charged charge
  split
  case isTrue => rfl
  case isFalse =>
    by_cases first : bucket.numSkipped = 0
    · simp only [if_pos first]
    · simp only [if_neg first]

theorem chargeAll_fst (buckets : List Bucket) (room : Room) :
    (limiter.chargeAll total buckets room).1 = buckets.map (limiter.charged total) := by
  induction buckets generalizing room with
  | nil => rfl
  | cons bucket buckets ih =>
      rw [List.map_cons, ← ih (limiter.charge total bucket room).2, ← charge_fst bucket room]
      rfl

theorem type_charged (bucket : Bucket) : (limiter.charged total bucket).type = bucket.type := by
  unfold charged charge
  split
  case isTrue => rfl
  case isFalse =>
    by_cases first : bucket.numSkipped = 0
    · simp only [if_pos first]
    · simp only [if_neg first]

section Limited

variable (limited : limiter.unlimitedMode = false)

include limited

theorem available_charged {bucket : Bucket} (room : total ≤ bucket.available) :
    (limiter.charged total bucket).available = wrap (bucket.available - total) := by
  unfold charged charge
  rw [if_pos (by simp [limited, room])]

theorem charge_allOk (bucket : Bucket) (room : Room) :
    (limiter.charge total bucket room).2.allOk = true ↔
      room.allOk = true ∧ bucket.Admits total := by
  unfold charge Bucket.Admits
  by_cases enough : total ≤ bucket.available
  · rw [if_pos (by simp [limited, enough])]
    dsimp only
    split
    case isTrue => simp [enough]
    case isFalse => simp [enough]
  · rw [if_neg (by simpa [limited] using enough)]
    by_cases first : bucket.numSkipped = 0
    · simp only [if_pos first]
      cases type : bucket.type with
      | mandatory => simp [enough]
      | informational => simp
    · simp only [if_neg first]
      cases type : bucket.type with
      | mandatory => simp [enough]
      | informational => simp

theorem chargeAll_allOk (buckets : List Bucket) (room : Room) :
    (limiter.chargeAll total buckets room).2.allOk = true ↔
      room.allOk = true ∧ ∀ bucket ∈ buckets, bucket.Admits total := by
  induction buckets generalizing room with
  | nil => simp [chargeAll]
  | cons bucket buckets ih =>
      have later := ih (limiter.charge total bucket room).2
      rw [charge_allOk limited] at later
      rw [List.forall_mem_cons, ← and_assoc, ← later]
      rfl

theorem allBucketsHaveRoom_iff : (limiter.allBucketsHaveRoom total).1 = true ↔
    ∀ bucket ∈ limiter.buckets, bucket.Admits total :=
  (chargeAll_allOk limited limiter.buckets _).trans (by simp)

omit limited in
theorem wrap_sub_ne {value : Int} (positive : 0 < total) (small : total < 2 ^ 63) :
    wrap (value - total) ≠ value := by
  intro same
  have reduced : (wrap (value - total)) % 2 ^ 64 = (value - total) % 2 ^ 64 := Int.bmod_emod
  rw [same] at reduced
  omega

theorem chargesLogged_iff (positive : 0 < total) (small : total < 2 ^ 63) :
    limiter.ChargesLogged total ↔ limiter.AllOrNone total := by
  have kept : (limiter.allBucketsHaveRoom total).2.2.buckets =
      limiter.buckets.map (limiter.charged total) := chargeAll_fst limiter.buckets _
  constructor
  · intro logged
    cases ok : (limiter.allBucketsHaveRoom total).1 with
    | true => exact .inl ((allBucketsHaveRoom_iff limited).mp ok)
    | false =>
        refine .inr fun bucket member mandatory => ?_
        by_contra enough
        have room : total ≤ bucket.available := Int.not_lt.mp enough
        obtain ⟨i, found⟩ := List.mem_iff_getElem?.mp member
        have after : (limiter.allBucketsHaveRoom total).2.2.buckets[i]? =
            some (limiter.charged total bucket) := by
          rw [kept, List.getElem?_map, found, Option.map_some]
        have same := logged ok i bucket _ found after mandatory room
        rw [available_charged limited room] at same
        exact wrap_sub_ne positive small same
  · intro either refused i before after found _ mandatory room
    have member := List.mem_of_getElem? found
    cases either with
    | inl all =>
        exact absurd (refused.symm.trans ((allBucketsHaveRoom_iff limited).mpr all)) Bool.false_ne_true
    | inr none => exact absurd room (Int.not_le.mpr (none before member mandatory))

end Limited

end Limiter

end Calls

section Runs

namespace Logger

/-- The bytes of a message, with header and newline. -/
def size (logger : Logger) (message : Message) : Int :=
  logger.headerlen + (cleaned message.buf).length + 1

/-- The bytes that the daily bucket is charged for a message. -/
def dailyCharge (logger : Logger) (message : Message) : Int :=
  match (logger.limiter.maybeFillBuckets message.now).bind fun filled => filled.buckets[1]? with
  | some daily => if logger.size message ≤ daily.available then logger.size message else 0
  | none => 0

/-- The charge is what the call takes from a daily bucket that has room, and else nothing. -/
def DailyCharged (logger : Logger) (message : Message) : Prop :=
  ∀ filled daily after, logger.limiter.maybeFillBuckets message.now = some filled →
    filled.buckets[1]? = some daily → (logger.take message).limiter.buckets[1]? = some after →
      if logger.size message ≤ daily.available then
        after.available = wrap (daily.available - logger.dailyCharge message)
      else logger.dailyCharge message = 0

/-- The bytes that are let through of a message. -/
def letThrough (logger : Logger) (message : Message) : Int :=
  (logger.take message).passed - logger.passed

/-- Over every part of a run the daily bucket is charged what is let through. -/
def DailyLogged (trace : List (Logger × Message)) : Prop :=
  ∀ front part back, trace = front ++ part ++ back →
    (part.map fun entry => entry.1.dailyCharge entry.2).sum =
      (part.map fun entry => entry.1.letThrough entry.2).sum

/-- Where the daily bucket has room for the message, the burst bucket has room too. -/
def BurstAdmits (logger : Logger) (message : Message) : Prop :=
  ∀ filled burst daily, logger.limiter.maybeFillBuckets message.now = some filled →
    filled.buckets[0]? = some burst → filled.buckets[1]? = some daily →
      logger.size message ≤ daily.available → logger.size message ≤ burst.available

/-- The types of the buckets that the program is set up with. -/
structure Shaped (limiter : Limiter) : Prop where
  limited : limiter.unlimitedMode = false
  types : limiter.buckets.map Bucket.type = [.mandatory, .mandatory, .informational]

theorem flush_eq (headerlen : Nat) (now : Int) (buf : List Byte) (limiter : Limiter) :
    flush headerlen now buf limiter = flushRatelimited headerlen now (cleaned buf) limiter := by
  unfold flush cleaned hasControl
  split
  case isTrue => rfl
  case isFalse => rfl

theorem type_fill {bucket after : Bucket} {tdiff : Int} (filled : bucket.fill tdiff = some after) :
    after.type = bucket.type := by
  unfold Bucket.fill at filled
  by_cases negative : (wrap (tdiff * bucket.fillRate)).tdiv 1000 < 0
  · simp only [if_pos negative] at filled
    cases filled
  · simp only [if_neg negative] at filled
    cases filled
    rfl

theorem types_fill {buckets after : List Bucket} {tdiff : Int}
    (filled : buckets.mapM (Bucket.fill tdiff) = some after) :
    after.map Bucket.type = buckets.map Bucket.type := by
  induction buckets generalizing after with
  | nil =>
      cases filled
      rfl
  | cons bucket buckets ih =>
      rw [List.mapM_cons] at filled
      obtain ⟨first, one, rest⟩ := Option.bind_eq_some_iff.mp filled
      obtain ⟨others, all, both⟩ := Option.bind_eq_some_iff.mp rest
      cases both
      rw [List.map_cons, List.map_cons, type_fill one, ih all]

theorem Shaped.filled {limiter filled : Limiter} {now : Int} (shaped : Shaped limiter)
    (filling : limiter.maybeFillBuckets now = some filled) : Shaped filled := by
  unfold Limiter.maybeFillBuckets at filling
  split at filling
  case isTrue =>
    cases filling
    refine ⟨shaped.limited, ?_⟩
    rw [← shaped.types, List.map_map]
    rfl
  case isFalse =>
    split at filling
    case isTrue =>
      obtain ⟨buckets, each, same⟩ := Option.bind_eq_some_iff.mp filling
      cases same
      exact ⟨shaped.limited, (types_fill each).trans shaped.types⟩
    case isFalse =>
      cases filling
      exact shaped

theorem Shaped.charged {limiter : Limiter} (shaped : Shaped limiter) (total : Int) :
    Shaped (limiter.allBucketsHaveRoom total).2.2 := by
  refine ⟨shaped.limited, ?_⟩
  have kept : (limiter.allBucketsHaveRoom total).2.2.buckets =
      limiter.buckets.map (limiter.charged total) := Limiter.chargeAll_fst limiter.buckets _
  rw [kept, List.map_map, ← shaped.types]
  exact List.map_congr_left fun bucket _ => Limiter.type_charged bucket

theorem Shaped.admits_iff {limiter : Limiter} (shaped : Shaped limiter) (total : Int) :
    ∃ burst daily warning, limiter.buckets = [burst, daily, warning] ∧
      ((limiter.allBucketsHaveRoom total).1 = true ↔
        total ≤ burst.available ∧ total ≤ daily.available) := by
  have types := shaped.types
  obtain ⟨burst, rest, whole, first, types⟩ := List.map_eq_cons_iff.mp types
  obtain ⟨daily, rest, same, second, types⟩ := List.map_eq_cons_iff.mp types
  obtain ⟨warning, rest, again, third, types⟩ := List.map_eq_cons_iff.mp types
  have nothing := List.map_eq_nil_iff.mp types
  subst nothing again same
  refine ⟨burst, daily, warning, whole, ?_⟩
  rw [Limiter.allBucketsHaveRoom_iff shaped.limited, whole]
  simp [Bucket.Admits, first, second, third]

/-- What a message adds to the log. -/
theorem take_cases (logger : Logger) (message : Message) :
    (logger.limiter.maybeFillBuckets message.now = none ∧
        (logger.take message).limiter = logger.limiter ∧ logger.letThrough message = 0) ∨
      ∃ filled, logger.limiter.maybeFillBuckets message.now = some filled ∧
        (logger.take message).limiter =
          (filled.allBucketsHaveRoom (logger.size message)).2.2 ∧
        logger.letThrough message =
          if (filled.allBucketsHaveRoom (logger.size message)).1 then logger.size message else 0 := by
  unfold letThrough take
  simp only [flush_eq, flushRatelimited]
  cases filling : logger.limiter.maybeFillBuckets message.now with
  | none => exact .inl ⟨rfl, rfl, Int.sub_self _⟩
  | some filled =>
      refine .inr ⟨filled, rfl, rfl, ?_⟩
      simp only [Option.bind_eq_bind, Option.bind_some, passed, List.map_append, List.sum_append,
        sum_notices, Int.zero_add, add_sub_cancel_left]
      have size_eq : (logger.headerlen : Int) + (cleaned message.buf).length + 1 =
          logger.size message := rfl
      rw [size_eq]
      cases (filled.allBucketsHaveRoom (logger.size message)).1 with
      | true => simp [Written.size, size]
      | false => rfl

theorem dailyCharged {logger : Logger} (shaped : Shaped logger.limiter) (message : Message) :
    logger.DailyCharged message := by
  intro filled daily after filling second changed
  have charge : logger.dailyCharge message =
      if logger.size message ≤ daily.available then logger.size message else 0 := by
    simp only [dailyCharge, filling, Option.bind_some, second]
  cases logger.take_cases message with
  | inl stopped => cases filling.symm.trans stopped.1
  | inr taken =>
      obtain ⟨same, again, limiter, -⟩ := taken
      cases filling.symm.trans again
      have kept : (filled.allBucketsHaveRoom (logger.size message)).2.2.buckets =
          filled.buckets.map (filled.charged (logger.size message)) :=
        Limiter.chargeAll_fst filled.buckets _
      rw [limiter, kept, List.getElem?_map, second] at changed
      cases changed
      rw [charge]
      by_cases room : logger.size message ≤ daily.available
      · rw [if_pos room, if_pos room]
        exact Limiter.available_charged (shaped.filled filling).limited room
      · rw [if_neg room, if_neg room]

/-- A message is charged to the daily bucket just as it is let through, unless the burst
bucket alone refuses it. -/
theorem dailyCharge_eq_iff {logger : Logger} {message : Message} (shaped : Shaped logger.limiter) :
    logger.dailyCharge message = logger.letThrough message ↔ logger.BurstAdmits message := by
  have positive : 0 < logger.size message := by
    unfold size
    omega
  cases logger.take_cases message with
  | inl stopped =>
      obtain ⟨none, -, nothing⟩ := stopped
      simp [dailyCharge, BurstAdmits, none, nothing]
  | inr taken =>
      obtain ⟨filled, filling, -, through⟩ := taken
      obtain ⟨burst, daily, warning, whole, admits⟩ :=
        (shaped.filled filling).admits_iff (logger.size message)
      have charge : logger.dailyCharge message =
          if logger.size message ≤ daily.available then logger.size message else 0 := by
        simp only [dailyCharge, filling, Option.bind_some, whole]
        rfl
      have either : logger.BurstAdmits message ↔
          (logger.size message ≤ daily.available → logger.size message ≤ burst.available) := by
        constructor
        · intro all
          exact all filled burst daily filling (by rw [whole]; rfl) (by rw [whole]; rfl)
        · intro holds other first second also zeroth one
          cases filling.symm.trans also
          rw [whole] at zeroth one
          cases zeroth
          cases one
          exact holds
      rw [either, charge, through]
      by_cases room : logger.size message ≤ daily.available
      · by_cases burstRoom : logger.size message ≤ burst.available
        · rw [if_pos room, if_pos (admits.mpr ⟨burstRoom, room⟩)]
          exact ⟨fun _ _ => burstRoom, fun _ => rfl⟩
        · rw [if_pos room, if_neg fun ok => burstRoom (admits.mp ok).1]
          exact ⟨fun zero => absurd zero positive.ne', fun holds => absurd (holds room) burstRoom⟩
      · rw [if_neg room, if_neg fun ok => room (admits.mp ok).2]
        exact ⟨fun _ here => absurd here room, fun _ => rfl⟩

theorem Shaped.take {logger : Logger} (shaped : Shaped logger.limiter) (message : Message) :
    Shaped (logger.take message).limiter := by
  cases logger.take_cases message with
  | inl stopped => exact stopped.2.1 ▸ shaped
  | inr taken =>
      obtain ⟨filled, filling, after, -⟩ := taken
      exact after ▸ (shaped.filled filling).charged _

theorem shaped_start (bytesPerBurst bytesPerDay : Int) :
    Shaped (.start bytesPerBurst bytesPerDay) :=
  ⟨rfl, rfl⟩

/-- Each message is a part of the run. -/
theorem dailyLogged_iff {trace : List (Logger × Message)} : DailyLogged trace ↔
    StepsMeet (fun logger message => logger.dailyCharge message = logger.letThrough message)
      trace := by
  constructor
  · intro logged entry member
    obtain ⟨front, back, whole⟩ := List.append_of_mem member
    simpa using logged front [entry] back (by simpa using whole)
  · intro each front part back whole
    refine congrArg List.sum (List.map_congr_left fun entry member => each entry ?_)
    rw [whole]
    simp [member]

/-- A call charges only what is logged just when the mandatory buckets agree, and the daily
bucket, from which its charges are taken, is charged what is let through just when no message
is refused by the burst bucket alone. -/
theorem charges_logged_iff {limiter : Limiter} {total : Int}
    (limited : limiter.unlimitedMode = false) (positive : 0 < total) (small : total < 2 ^ 63)
    {headerlen : Nat} {bytesPerBurst bytesPerDay : Int} {finish : Logger}
    {trace : List (Logger × Message)}
    (run : Run Logger.Step (.start headerlen bytesPerBurst bytesPerDay) trace finish) :
    (limiter.ChargesLogged total ↔ limiter.AllOrNone total) ∧
      StepsMeet DailyCharged trace ∧ (DailyLogged trace ↔ StepsMeet BurstAdmits trace) := by
  refine ⟨Limiter.chargesLogged_iff limited positive small, ?_⟩
  have always : StepsMeet (fun _ _ => True) trace := fun _ _ => trivial
  have shaped : Throughout (fun logger => Shaped logger.limiter) trace finish := run.throughout
    (shaped_start bytesPerBurst bytesPerDay)
    (fun shaped _ step => by
      obtain ⟨-, -, -, -, taken⟩ := step
      subst taken
      exact shaped.take _) always
  refine ⟨fun entry member => dailyCharged (shaped.1 entry member) entry.2, ?_⟩
  rw [dailyLogged_iff]
  exact forall₂_congr fun entry member => dailyCharge_eq_iff (shaped.1 entry member)

theorem charges_logged_default :
    (Limiter.start 1000000 5000000).AllOrNone 20 ∧
      (Limiter.start 1000000 5000000).ChargesLogged 20 ∧
      StepsMeet DailyCharged (traceOf Logger.take (.start 9 1000000 5000000) twoMessages) ∧
      DailyLogged (traceOf Logger.take (.start 9 1000000 5000000) twoMessages) ∧
      StepsMeet BurstAdmits (traceOf Logger.take (.start 9 1000000 5000000) twoMessages) := by
  obtain ⟨each, charged, daily⟩ := charges_logged_iff
    (show (Limiter.start 1000000 5000000).unlimitedMode = false from rfl)
    (show (0 : Int) < 20 by decide) (by decide)
    (run_twoMessages 9 1000000 5000000 (by decide +kernel))
  have all : (Limiter.start 1000000 5000000).AllOrNone 20 := by
    refine .inl ?_
    unfold Bucket.Admits
    decide
  have logged : DailyLogged (traceOf Logger.take (.start 9 1000000 5000000) twoMessages) := by
    refine dailyLogged_iff.mpr ?_
    simp only [StepsMeet, traceOf, twoMessages, List.mem_cons, List.not_mem_nil, or_false,
      forall_eq_or_imp, forall_eq]
    exact ⟨by decide +kernel, by decide +kernel⟩
  exact ⟨all, each.mpr all, charged, logged, daily.mp logged⟩

/-- With the smallest limits the burst bucket has no room for 200 bytes at first, and the daily
bucket is charged for them. -/
theorem refused_message_charged : ¬∀ (limiter : Limiter) (total : Int),
    limiter.unlimitedMode = false → 0 < total → total < 2 ^ 63 → limiter.ChargesLogged total := by
  intro always
  have logged := always (.start 600 86400) 200 rfl (by decide) (by decide)
  have burst : (initBuckets 600 86400)[0]? = some (initBuckets 600 86400)[0] := rfl
  have daily : (initBuckets 600 86400)[1]? = some (initBuckets 600 86400)[1] := rfl
  cases (Limiter.chargesLogged_iff rfl (by decide) (by decide)).mp logged with
  | inl all => exact absurd (all _ (List.mem_of_getElem? burst) rfl) (by decide)
  | inr none => exact absurd (none _ (List.mem_of_getElem? daily) rfl) (by decide)

end Logger

end Runs

end Gfiber.Logos
