import Mathlib.Tactic.Ring
import Mathlib.Tactic.SplitIfs
import Gfiber.Logos.RateLimit

/-! What the buckets let through. Every bucket stays within its bounds, and the
messages that passed and what is left in a mandatory bucket never exceed what
the bucket had at first and was given since. -/

set_option autoImplicit false

namespace Gfiber.Logos

open Lib

section Charging

/-- What a bucket is set up with. -/
def Bucket.limits (bucket : Bucket) : BucketType × Int × Int :=
  (bucket.type, bucket.maxBytes, bucket.fillRate)

structure Bucket.Inside (bucket : Bucket) : Prop where
  nonneg : 0 ≤ bucket.available
  le_max : bucket.available ≤ bucket.maxBytes
  small : bucket.maxBytes < 2 ^ 63
  rate : 0 ≤ bucket.fillRate

/-- A bucket before and after a message of some size. -/
structure Charged (total : Int) (ok : Bool) (before after : Bucket) : Prop where
  limits : after.limits = before.limits
  inside : after.Inside
  le : after.available ≤ before.available
  paid : ok → before.type = .mandatory → after.available + total = before.available

theorem wrap_of_small {value : Int} (nonneg : 0 ≤ value) (small : value < 2 ^ 63) :
    wrap value = value := by
  rw [wrap, Int.bmod_eq_of_le] <;> omega

variable {limiter : Limiter} (limited : limiter.unlimitedMode = false) {total : Int}
  (positive : 0 ≤ total)
include limited positive

theorem charge_spec {bucket : Bucket} (inside : bucket.Inside) (room : Limiter.Room) :
    let result := limiter.charge total bucket room
    Charged total result.2.allOk bucket result.1 ∧ (result.2.allOk → room.allOk) := by
  obtain ⟨nonneg, le_max, small, rate⟩ := inside
  simp only [Limiter.charge, limited, Bool.or_false, decide_eq_true_eq]
  split
  case isTrue enough =>
    have left : wrap (bucket.available - total) = bucket.available - total :=
      wrap_of_small (by omega) (by omega)
    rw [left]
    refine ⟨⟨rfl, ⟨by dsimp only; omega, by dsimp only; omega, small, rate⟩, by dsimp only; omega,
      fun _ _ => by dsimp only; omega⟩, ?_⟩
    split <;> exact id
  case isFalse short =>
    split
    case isTrue first =>
      dsimp only
      refine ⟨⟨rfl, ⟨le_rfl, nonneg.trans le_max, small, rate⟩, nonneg, fun ok mandatory => ?_⟩, ?_⟩
      · rw [mandatory] at ok
        cases ok
      · cases bucket.type with
        | mandatory => simp
        | informational => exact id
    case isFalse again =>
      dsimp only
      refine ⟨⟨rfl, ⟨nonneg, le_max, small, rate⟩, le_rfl, fun ok mandatory => ?_⟩, ?_⟩
      · rw [mandatory] at ok
        cases ok
      · cases bucket.type with
        | mandatory => simp
        | informational => exact id

theorem chargeAll_spec {buckets : List Bucket} (inside : ∀ bucket ∈ buckets, bucket.Inside)
    (room : Limiter.Room) :
    let result := limiter.chargeAll total buckets room
    result.1.map Bucket.limits = buckets.map Bucket.limits ∧ (result.2.allOk → room.allOk) ∧
      ∀ bucket ∈ result.1, ∃ before ∈ buckets,
        Charged total result.2.allOk before bucket := by
  induction buckets generalizing room with
  | nil => exact ⟨rfl, id, by simp [Limiter.chargeAll]⟩
  | cons bucket buckets ih =>
      obtain ⟨charged, kept⟩ := charge_spec limited positive (inside bucket List.mem_cons_self) room
      obtain ⟨same, later, each⟩ :=
        ih (fun other member => inside other (List.mem_cons_of_mem _ member))
          (limiter.charge total bucket room).2
      simp only [Limiter.chargeAll]
      refine ⟨?_, fun ok => kept (later ok), ?_⟩
      · rw [List.map_cons, List.map_cons, same, charged.limits]
      · intro other member
        rcases List.mem_cons.mp member with rfl | member
        · exact ⟨bucket, List.mem_cons_self, charged.limits, charged.inside, charged.le,
            fun ok => charged.paid (later ok)⟩
        · obtain ⟨before, found, relation⟩ := each other member
          exact ⟨before, List.mem_cons_of_mem _ found, relation⟩

end Charging

section Filling

/-- A bucket's refill stays in the range of its variables. -/
def Bucket.NoOverflow (tdiff : Int) (bucket : Bucket) : Prop :=
  tdiff * bucket.fillRate < 2 ^ 63 ∧
    bucket.available + tdiff * bucket.fillRate / 1000 < 2 ^ 63

instance (tdiff : Int) : DecidablePred (Bucket.NoOverflow tdiff) :=
  fun _ => inferInstanceAs (Decidable (_ ∧ _))

def Bucket.filled (tdiff : Int) (bucket : Bucket) : Bucket :=
  { bucket with
    available := min (bucket.available + tdiff * bucket.fillRate / 1000) bucket.maxBytes }

variable {bucket : Bucket} {tdiff : Int}

theorem fill_eq (inside : bucket.Inside) (forward : 0 ≤ tdiff)
    (fits : bucket.NoOverflow tdiff) : bucket.fill tdiff = some (bucket.filled tdiff) := by
  obtain ⟨nonneg, le_max, small, rate⟩ := inside
  obtain ⟨product, sum⟩ := fits
  have added : 0 ≤ tdiff * bucket.fillRate := Int.mul_nonneg forward rate
  have quotient : 0 ≤ tdiff * bucket.fillRate / 1000 := Int.ediv_nonneg added (by decide)
  have capped (level : Int) :
      (if level > bucket.maxBytes then bucket.maxBytes else level) = min level bucket.maxBytes := by
    rw [Int.min_def]
    split <;> split <;> omega
  simp only [Bucket.fill, Bucket.filled, wrap_of_small added product, capped,
    Int.tdiv_eq_ediv_of_nonneg added, if_neg (Int.not_lt.mpr quotient),
    wrap_of_small (Int.add_nonneg nonneg quotient) sum]

theorem inside_filled (inside : bucket.Inside) (forward : 0 ≤ tdiff) :
    (bucket.filled tdiff).Inside := by
  have added : 0 ≤ tdiff * bucket.fillRate := Int.mul_nonneg forward inside.rate
  have quotient : 0 ≤ tdiff * bucket.fillRate / 1000 := Int.ediv_nonneg added (by decide)
  have nonneg := inside.nonneg
  have le_max := inside.le_max
  exact ⟨le_min (by omega) (by omega), min_le_right _ _, inside.small, inside.rate⟩

theorem mapM_eq_some {buckets : List Bucket} {next : Bucket → Option Bucket}
    {result : Bucket → Bucket} (each : ∀ bucket ∈ buckets, next bucket = some (result bucket)) :
    buckets.mapM next = some (buckets.map result) := by
  induction buckets with
  | nil => rfl
  | cons bucket buckets ih =>
      rw [List.mapM_cons, each bucket List.mem_cons_self,
        ih fun other member => each other (List.mem_cons_of_mem _ member)]
      rfl

/-- What has passed since the first message at `t0` and what is left stay within
what a bucket began with and was given. -/
structure Budget (limits : List (BucketType × Int × Int)) (t0 passed : Int) (limiter : Limiter) :
    Prop where
  same : limiter.buckets.map Bucket.limits = limits
  inside : ∀ bucket ∈ limiter.buckets, bucket.Inside
  limited : limiter.unlimitedMode = false
  begun : 0 < t0 ∧ t0 ≤ limiter.lastAddTime
  budget : ∀ bucket ∈ limiter.buckets, bucket.type = .mandatory →
    passed + bucket.available ≤
      bucket.maxBytes / 2 + bucket.fillRate * (limiter.lastAddTime - t0) / 1000

/-- The buckets have room for what the time since they were last filled brings. -/
def Limiter.NoOverflow (limiter : Limiter) (now : Int) : Prop :=
  limiter.lastAddTime ≠ 0 → limiter.refills now →
    ∀ bucket ∈ limiter.buckets, bucket.NoOverflow (now - limiter.lastAddTime)

variable {limits : List (BucketType × Int × Int)} {t0 passed now total : Int} {limiter : Limiter}

theorem Budget.fill (budget : Budget limits t0 passed limiter) (later : limiter.lastAddTime ≤ now)
    (fits : limiter.NoOverflow now) :
    ∃ after, limiter.maybeFillBuckets now = some after ∧ Budget limits t0 passed after ∧
      after.lastAddTime ≤ now := by
  have started : limiter.lastAddTime ≠ 0 := by
    have begun := budget.begun
    omega
  rw [Limiter.maybeFillBuckets, if_neg started]
  split
  case isFalse => exact ⟨limiter, rfl, budget, later⟩
  case isTrue refills =>
    have forward : 0 ≤ now - limiter.lastAddTime := by omega
    have filled := mapM_eq_some fun bucket (member : bucket ∈ limiter.buckets) =>
      fill_eq (budget.inside bucket member) forward (fits started refills bucket member)
    refine ⟨{ limiter with buckets := _, lastAddTime := now }, by rw [filled]; rfl, ?_, le_rfl⟩
    constructor
    · rw [← budget.same, List.map_map]
      rfl
    · intro bucket member
      obtain ⟨before, found, rfl⟩ := List.mem_map.mp member
      exact inside_filled (budget.inside before found) forward
    · exact budget.limited
    · exact ⟨budget.begun.1, budget.begun.2.trans later⟩
    · intro bucket member mandatory
      obtain ⟨before, found, rfl⟩ := List.mem_map.mp member
      have bound := budget.budget before found mandatory
      have capped : (before.filled (now - limiter.lastAddTime)).available ≤
          before.available + (now - limiter.lastAddTime) * before.fillRate / 1000 :=
        min_le_left _ _
      have split : before.fillRate * (now - t0) = before.fillRate * (limiter.lastAddTime - t0) +
          (now - limiter.lastAddTime) * before.fillRate := by
        ring
      simp only [Bucket.filled] at capped ⊢
      rw [split]
      omega

theorem Budget.charge (budget : Budget limits t0 passed limiter) (positive : 0 ≤ total) :
    let result := limiter.allBucketsHaveRoom total
    Budget limits t0 (passed + bif result.1 then total else 0) result.2.2 ∧
      result.2.2.lastAddTime = limiter.lastAddTime := by
  obtain ⟨same, _, each⟩ := chargeAll_spec budget.limited positive budget.inside
    ⟨true, false, limiter.backoff, []⟩
  simp only [Limiter.allBucketsHaveRoom]
  generalize limiter.chargeAll total limiter.buckets ⟨true, false, limiter.backoff, []⟩ = result
    at same each
  refine ⟨⟨same.trans budget.same, ?_, budget.limited, budget.begun, ?_⟩, trivial⟩
  · intro bucket member
    obtain ⟨_, _, charged⟩ := each bucket member
    exact charged.inside
  · intro bucket member mandatory
    obtain ⟨before, found, charged⟩ := each bucket member
    have limits := charged.limits
    simp only [Bucket.limits, Prod.mk.injEq] at limits
    obtain ⟨type, maximum, rate⟩ := limits
    have bound := budget.budget before found (type ▸ mandatory)
    have le := charged.le
    have paid := charged.paid
    rw [maximum, rate]
    dsimp only
    cases ok : result.2.allOk with
    | true =>
        have exactly := paid ok (type ▸ mandatory)
        rw [cond_true]
        omega
    | false =>
        rw [cond_false]
        omega

end Filling

section Messages

variable {limits : List (BucketType × Int × Int)} {t0 passed now : Int}

theorem sum_notices (headerlen : Nat) (notices : List (List Byte)) :
    ((notices.map Written.notice).map (Written.size headerlen)).sum = 0 := by
  induction notices with
  | nil => rfl
  | cons notice notices ih => simpa [Written.size] using ih

theorem flushRatelimited_spec {limiter filled : Limiter} (headerlen : Nat) (buf : List Byte)
    (filling : limiter.maybeFillBuckets now = some filled)
    (budget : Budget limits t0 passed filled) :
    ∃ written after, flushRatelimited headerlen now buf limiter = some (written, after) ∧
      Budget limits t0 (passed + (written.map (Written.size headerlen)).sum) after ∧
      after.lastAddTime = filled.lastAddTime := by
  have size : (0 : Int) ≤ headerlen + buf.length + 1 := by omega
  have charged := budget.charge size
  simp only [flushRatelimited, filling, Option.bind_eq_bind, Option.bind_some]
  generalize filled.allBucketsHaveRoom (headerlen + buf.length + 1) = result at charged
  obtain ⟨ok, notices, after⟩ := result
  refine ⟨_, after, rfl, ?_, charged.2⟩
  rw [List.map_append, List.sum_append, sum_notices, Int.zero_add]
  cases ok with
  | true => simpa [Written.size] using charged.1
  | false => simpa using charged.1

theorem flush_spec {limiter filled : Limiter} (headerlen : Nat) (buf : List Byte)
    (filling : limiter.maybeFillBuckets now = some filled)
    (budget : Budget limits t0 passed filled) :
    ∃ written after, flush headerlen now buf limiter = some (written, after) ∧
      Budget limits t0 (passed + (written.map (Written.size headerlen)).sum) after ∧
      after.lastAddTime = filled.lastAddTime := by
  rw [flush]
  split
  · exact flushRatelimited_spec headerlen (fixBuf buf) filling budget
  · exact flushRatelimited_spec headerlen buf filling budget

/-- The program runs on, its buckets are within their bounds, and no mandatory
bucket has let more through than it may. -/
structure Limited (limits : List (BucketType × Int × Int)) (logger : Logger) : Prop where
  running : logger.aborted = false
  same : logger.limiter.buckets.map Bucket.limits = limits
  inside : ∀ bucket ∈ logger.limiter.buckets,
    0 ≤ bucket.available ∧ bucket.available ≤ bucket.maxBytes
  bounded : ∀ bucket ∈ logger.limiter.buckets, bucket.type = .mandatory → ∀ t0 ∈ logger.t0,
    logger.passed ≤ bucket.maxBytes / 2 + bucket.fillRate * (logger.clock - t0) / 1000

/-- Before the first message nothing has passed, and after it the budget holds. -/
structure Keeping (limits : List (BucketType × Int × Int)) (logger : Logger) : Prop where
  running : logger.aborted = false
  same : logger.limiter.buckets.map Bucket.limits = limits
  inside : ∀ bucket ∈ logger.limiter.buckets, bucket.Inside
  limited : logger.limiter.unlimitedMode = false
  unstarted : logger.t0 = none → logger.limiter.lastAddTime = 0 ∧ logger.written = []
  started : ∀ t0 ∈ logger.t0, Budget limits t0 logger.passed logger.limiter ∧
    logger.limiter.lastAddTime ≤ logger.clock

theorem Keeping.limited_of {logger : Logger} (keeping : Keeping limits logger) :
    Limited limits logger where
  running := keeping.running
  same := keeping.same
  inside := fun bucket member =>
    ⟨(keeping.inside bucket member).nonneg, (keeping.inside bucket member).le_max⟩
  bounded := by
    intro bucket member mandatory t0 first
    obtain ⟨budget, past⟩ := keeping.started t0 first
    have bound := budget.budget bucket member mandatory
    have inside := keeping.inside bucket member
    have grown : bucket.fillRate * (logger.limiter.lastAddTime - t0) ≤
        bucket.fillRate * (logger.clock - t0) :=
      Int.mul_le_mul_of_nonneg_left (by omega) inside.rate
    have nonneg := inside.nonneg
    omega

/-- At the first message the buckets are half full. -/
theorem Keeping.first_fill {logger : Logger} (keeping : Keeping limits logger)
    (first : logger.t0 = none) (positive : 0 < now) :
    ∃ filled, logger.limiter.maybeFillBuckets now = some filled ∧
      Budget limits now 0 filled ∧ filled.lastAddTime ≤ now := by
  rw [Limiter.maybeFillBuckets, if_pos (keeping.unstarted first).1]
  refine ⟨_, rfl, ⟨?_, ?_, keeping.limited, ⟨positive, le_rfl⟩, ?_⟩, le_rfl⟩
  · rw [← keeping.same, List.map_map]
    rfl
  · intro bucket member
    obtain ⟨before, found, rfl⟩ := List.mem_map.mp member
    obtain ⟨nonneg, le_max, small, rate⟩ := keeping.inside before found
    rw [Int.tdiv_eq_ediv_of_nonneg (nonneg.trans le_max)]
    exact ⟨by dsimp only; omega, by dsimp only; omega, small, rate⟩
  · intro bucket member _
    obtain ⟨before, found, rfl⟩ := List.mem_map.mp member
    obtain ⟨nonneg, le_max, _, _⟩ := keeping.inside before found
    rw [Int.tdiv_eq_ediv_of_nonneg (nonneg.trans le_max)]
    simp

theorem Keeping.fill {logger : Logger} (keeping : Keeping limits logger) (positive : 0 < now)
    (later : logger.clock ≤ now) (fits : logger.limiter.NoOverflow now) :
    ∃ filled, logger.limiter.maybeFillBuckets now = some filled ∧
      Budget limits (logger.t0.getD now) logger.passed filled ∧ filled.lastAddTime ≤ now := by
  cases first : logger.t0 with
  | none =>
      have nothing : logger.passed = 0 := by
        rw [Logger.passed, (keeping.unstarted first).2]
        rfl
      rw [nothing]
      exact keeping.first_fill first positive
  | some t0 =>
      obtain ⟨budget, past⟩ := keeping.started t0 first
      exact budget.fill (past.trans later) fits

theorem Keeping.step {logger next : Logger} {message : Message}
    (keeping : Keeping limits logger) (fits : logger.limiter.NoOverflow message.now)
    (step : Logger.Step logger message next) : Keeping limits next := by
  obtain ⟨_, positive, later, _, rfl⟩ := step
  obtain ⟨filled, filling, budget, past⟩ := keeping.fill positive later fits
  obtain ⟨written, after, flushed, budget, same⟩ :=
    flush_spec logger.headerlen message.buf filling budget
  have taken : logger.take message = { logger with
      t0 := some (logger.t0.getD message.now)
      clock := message.now
      limiter := after
      written := logger.written ++ written } := by
    simp only [Logger.take, flushed]
  rw [taken]
  refine ⟨keeping.running, budget.same, budget.inside, budget.limited, by simp, ?_⟩
  intro t0 first
  cases first
  have passed : (logger.written ++ written).map (Written.size logger.headerlen) =
      logger.written.map (Written.size logger.headerlen) ++
        written.map (Written.size logger.headerlen) := List.map_append
  refine ⟨?_, by rw [same]; exact past⟩
  rw [Logger.passed, passed, List.sum_append]
  exact budget

theorem bucketLimits_range {argBurst argDay : Option Word64} {bytesPerBurst bytesPerDay : Int}
    (accepted : bucketLimits argBurst argDay = some (bytesPerBurst, bytesPerDay)) :
    (600 ≤ bytesPerBurst ∧ bytesPerBurst < 2 ^ 63) ∧
      (86400 ≤ bytesPerDay ∧ bytesPerDay < 2 ^ 63) := by
  have small (argument : Option Word64) {default : Int} (fits : default < 2 ^ 63) :
      (argument.map BitVec.toInt).getD default < 2 ^ 63 := by
    cases argument with
    | none => exact fits
    | some value => exact BitVec.toInt_lt
  have burst := @small argBurst defaultBytesPerBurst (by decide)
  have day := @small argDay 0 (by decide)
  simp only [bucketLimits] at accepted
  generalize (argBurst.map BitVec.toInt).getD defaultBytesPerBurst = chosenBurst at burst accepted
  generalize (argDay.map BitVec.toInt).getD 0 = chosenDay at day accepted
  simp only [secsPerBurst, secsPerDay, defaultBytesPerBurst, defaultBytesPerDay] at accepted
  split_ifs at accepted <;> cases accepted <;> omega

theorem keeping_start {bytesPerBurst bytesPerDay : Int} (headerlen : Nat)
    (burst : 600 ≤ bytesPerBurst ∧ bytesPerBurst < 2 ^ 63)
    (day : 86400 ≤ bytesPerDay ∧ bytesPerDay < 2 ^ 63) :
    Keeping ((initBuckets bytesPerBurst bytesPerDay).map Bucket.limits)
      (.start headerlen bytesPerBurst bytesPerDay) := by
  refine ⟨rfl, rfl, ?_, rfl, fun _ => ⟨rfl, rfl⟩, fun t0 first => by cases first⟩
  have half : bytesPerBurst.tdiv 2 = bytesPerBurst / 2 := Int.tdiv_eq_ediv_of_nonneg (by omega)
  have quarter : (bytesPerBurst / 2).tdiv 2 = bytesPerBurst / 2 / 2 :=
    Int.tdiv_eq_ediv_of_nonneg (by omega)
  have rate : (bytesPerBurst / 2).tdiv 300 = bytesPerBurst / 2 / 300 :=
    Int.tdiv_eq_ediv_of_nonneg (by omega)
  have halfDay : bytesPerDay.tdiv 2 = bytesPerDay / 2 := Int.tdiv_eq_ediv_of_nonneg (by omega)
  have rateDay : bytesPerDay.tdiv (24 * 60 * 60) = bytesPerDay / (24 * 60 * 60) :=
    Int.tdiv_eq_ediv_of_nonneg (by omega)
  intro bucket member
  simp only [Logger.start, Limiter.start, initBuckets, secsPerBurst, secsPerDay, List.mem_cons,
    List.not_mem_nil, or_false, half, quarter, rate, halfDay, rateDay] at member
  rcases member with rfl | rfl | rfl <;> constructor <;> dsimp only <;> omega

/-- In every run in which the refills do not overflow, each bucket is within its
bounds and the mandatory ones keep to their rates. -/
theorem logger_limits {argBurst argDay : Option Word64} {bytesPerBurst bytesPerDay : Int}
    (accepted : bucketLimits argBurst argDay = some (bytesPerBurst, bytesPerDay))
    (headerlen : Nat) {finish : Logger} {trace : List (Logger × Message)}
    (run : Run Logger.Step (.start headerlen bytesPerBurst bytesPerDay) trace finish)
    (fits : StepsMeet (fun logger message => logger.limiter.NoOverflow message.now) trace) :
    Throughout (Limited ((initBuckets bytesPerBurst bytesPerDay).map Bucket.limits)) trace
      finish := by
  obtain ⟨burst, day⟩ := bucketLimits_range accepted
  have keeping := run.throughout (keeping_start headerlen burst day)
    (fun keeping fits step => keeping.step fits step) fits
  exact ⟨fun entry member => (keeping.1 entry member).limited_of, keeping.2.limited_of⟩

/-- Two messages with two seconds between them. -/
def twoMessages : List Message := [⟨1, bytesOf "up"⟩, ⟨2001, bytesOf "down"⟩]

theorem clock_take (logger : Logger) (message : Message) :
    (logger.take message).clock = message.now := by
  simp only [Logger.take]
  split <;> rfl

theorem run_twoMessages (headerlen : Nat) (bytesPerBurst bytesPerDay : Int)
    (alive : ((Logger.start headerlen bytesPerBurst bytesPerDay).take ⟨1, bytesOf "up"⟩).aborted =
      false) :
    Run Logger.Step (.start headerlen bytesPerBurst bytesPerDay)
      (traceOf Logger.take (.start headerlen bytesPerBurst bytesPerDay) twoMessages)
      (twoMessages.foldl Logger.take (.start headerlen bytesPerBurst bytesPerDay)) := by
  apply Run.of_trace
  simp only [StepsMeet, traceOf, twoMessages, List.mem_cons, List.not_mem_nil, or_false,
    forall_eq_or_imp, forall_eq]
  refine ⟨⟨rfl, by decide, Int.one_nonneg, by decide, rfl⟩, alive, by decide, ?_, by decide, rfl⟩
  rw [clock_take]
  decide

theorem logger_limits_default :
    Throughout (Limited ((initBuckets 1000000 5000000).map Bucket.limits))
      (traceOf Logger.take (.start 9 1000000 5000000) twoMessages)
      (twoMessages.foldl Logger.take (.start 9 1000000 5000000)) := by
  have accepted : bucketLimits none none = some (1000000, 5000000) := by decide
  refine logger_limits accepted 9 (run_twoMessages 9 1000000 5000000 (by decide +kernel)) ?_
  simp only [StepsMeet, traceOf, twoMessages, List.mem_cons, List.not_mem_nil, or_false,
    forall_eq_or_imp, forall_eq]
  constructor
  · intro started
    exact absurd rfl started
  · intro _ _
    decide +kernel

/-- With the largest burst limit the refill overflows after one second, and the
assertion that follows fails. -/
theorem logger_aborts :
    ¬ ∀ (argBurst argDay : Option Word64) (bytesPerBurst bytesPerDay : Int) (headerlen : Nat)
      (finish : Logger) (trace : List (Logger × Message)),
      bucketLimits argBurst argDay = some (bytesPerBurst, bytesPerDay) →
      Run Logger.Step (.start headerlen bytesPerBurst bytesPerDay) trace finish →
      Throughout (Limited ((initBuckets bytesPerBurst bytesPerDay).map Bucket.limits)) trace
        finish := by
  intro alwaysLimited
  have limited := alwaysLimited (some 0x7fffffffffffffff) none (2 ^ 63 - 1) 5000000 9 _ _
    (by decide +kernel) (run_twoMessages 9 (2 ^ 63 - 1) 5000000 (by decide +kernel))
  have aborted : (twoMessages.foldl Logger.take (.start 9 (2 ^ 63 - 1) 5000000)).aborted = true := by
    decide +kernel
  rw [limited.2.running] at aborted
  cases aborted

end Messages

end Gfiber.Logos
