/-
  Subject:   When a failed attempt can be scheduled again (execution.rs, compiler.rs, timing.rs).

  Delays reach the Scheduler as protobuf durations and are bounded from below only. The factor, the
  product and the attempt number stay in their types; the sum with the clock need not, and the timer
  wheel does not take every deadline.

  * `RetryFits` -- the delay the policy grants leaves room;
  * **`retry_scheduled_iff`** -- a failure is handled without a panic exactly when there is room up
    to chrono's last date, and the wheel takes its timer when there is room on the wheel.
-/
import Smalux.Remote.Catalog
import Smalux.Remote.FullPatch

namespace Smalux.Remote

open Lib Scheduler SchedulerActor

variable {a : SchedulerActor} {jobId : JobId} {attempt : Nat} {class_ : FailureClass}

/-! ## 1. From the definition to the policy -/

/-- What `compile_job` and `validate_trigger` leave of the policy of a definition. -/
def PolicyOf (definition : Proto.JobDefinition) (config : SchedulerConfig) :
    ExecutionRetryPolicy → Prop
  | .none => True
  | .exponential maxAttempts initialDelay maxDelay _ =>
    maxAttempts ≤ config.maximumRetryAttempts ∧ config.minimumRetryDelay ≤ initialDelay ∧
      initialDelay ≤ maxDelay ∧
      ∃ value initial longest, definition.options.bind (·.retry) = some (some (.exponential value)) ∧
        value.initialDelay = some initial ∧ value.maxDelay = some longest ∧
        (maxAttempts : Nat) = value.maxAttempts ∧
        (initialDelay : Int) = initial.seconds * 10 ^ 9 + initial.nanos ∧
        (maxDelay : Int) = longest.seconds * 10 ^ 9 + longest.nanos

theorem duration_ok {value : Option Proto.Duration} {field : String} {allowZero : Bool}
    {d : Duration} (h : duration value field allowZero = .ok d) :
    ∃ v, value = some v ∧ (d : Int) = v.seconds * 10 ^ 9 + v.nanos := by
  unfold duration at h
  obtain ⟨v, hv, hd⟩ := bind_eq_ok h
  clear h
  cases value with
  | none => cases hv
  | some =>
    cases hv
    refine ⟨_, rfl, ?_⟩
    split at hd
    · cases hd
    · dsimp only at hd
      split at hd
      · cases hd
      · cases hd
        push_cast
        omega

theorem compileOptions_retry {value : Option Proto.JobOptions} {options : JobOptions}
    (h : compileOptions value = .ok options) : ∃ retry,
      optional compileRetry (value.bind (·.retry)) = .ok retry ∧ options.retry = retry.getD .none := by
  cases value with
  | none =>
    cases h
    exact ⟨none, rfl, rfl⟩
  | some value =>
    rw [compileOptions] at h
    iterate 4 obtain ⟨_, -, h⟩ := bind_eq_ok h
    obtain ⟨retry, hretry, h⟩ := bind_eq_ok h
    obtain ⟨_, -, h⟩ := bind_eq_ok h
    cases h
    exact ⟨retry, hretry, rfl⟩

/-- **The policy of an accepted definition.** -/
theorem policyOf {factory : TaskFactory} {definition : Proto.JobDefinition} {D : CompiledJob}
    {cr : Croner} {config : SchedulerConfig} (hcompiled : compileJob factory definition = .ok D)
    (hvalid : validateTrigger cr D.trigger D.options config = .ok ()) :
    PolicyOf definition config D.options.retry := by
  have hchecked := (validateTrigger_ok _ hvalid).2.2.2
  obtain ⟨retry, hretry, heq⟩ := compileOptions_retry (compileJob_ok hcompiled).1
  rw [heq] at hchecked ⊢
  match hpolicy : definition.options.bind (·.retry) with
  | none | some (some .noRetry) =>
    rw [hpolicy] at hretry
    cases hretry
    trivial
  | some none =>
    rw [hpolicy] at hretry
    cases hretry
  | some (some (.exponential value)) =>
    rw [hpolicy] at hretry
    cases hc : compileRetry (some (.exponential value)) with
    | error =>
      rw [optional, hc] at hretry
      cases hretry
    | ok =>
      rw [optional, hc] at hretry
      cases hretry
      obtain ⟨attempts, hattempts, h⟩ := bind_eq_ok hc
      obtain ⟨_, hinitial, h⟩ := bind_eq_ok h
      obtain ⟨_, hlongest, h⟩ := bind_eq_ok h
      cases h
      obtain ⟨initial, hi, hd⟩ := duration_ok hinitial
      obtain ⟨longest, hl, hd'⟩ := duration_ok hlongest
      simp only [Option.getD_some, validateRetry] at hchecked
      split at hchecked
      · cases hchecked
      · rename_i hlimits
        push Not at hlimits
        refine ⟨hlimits.1, hlimits.2.1, hlimits.2.2, value, initial, longest, hpolicy, hi, hl, ?_,
          hd, hd'⟩
        unfold nonZero at hattempts
        split at hattempts <;> cases hattempts
        rfl

/-! ## 2. The delay -/

/-- Whether the policy retries failures of the class. -/
def RetryCondition.covers (retryOn : RetryCondition) : FailureClass → Bool
  | .transient => retryOn.transientError
  | .timeout => retryOn.timeout
  | .panic => retryOn.panic
  | .permanent => false

/-- The delay of the next attempt, if the policy grants one, leaves room. -/
def RetryFits (attempt : Nat) (class_ : FailureClass) (room : Int) : ExecutionRetryPolicy → Prop
  | .none => True
  | .exponential maxAttempts initialDelay maxDelay retryOn =>
    attempt < maxAttempts → RetryCondition.covers retryOn class_ = true →
      ((min (initialDelay * 2 ^ min (attempt - 1) 31) maxDelay : Nat) : Int) ≤ room

/-- The wheel of `DelayQueue` has six levels of 64 slots, of a millisecond on the first: `insert_at`
    panics on a deadline further ahead of the time up to which the wheel was turned last. -/
def wheelReach : Duration := (2 ^ 36 - 1) * 10 ^ 6

/-- The timer that is new after a call is taken by a wheel that is so far behind the clock. -/
def Taken (env : Env) (lag : Duration) (a a' : SchedulerActor) : Prop :=
  ∀ entry, a'.timers.get a.timers.nextKey = some entry →
    lag + (entry.runAt - a.now env) ≤ (wheelReach : Int)

theorem retryDelay_cases (attempt : Nat) (class_ : FailureClass) {job : JobEntry}
    (hjob : a.jobs.get jobId = some job) :
    (a.retryDelay jobId attempt class_ = none ∧ ∀ room, RetryFits attempt class_ room job.retry) ∨
      ∃ delay, a.retryDelay jobId attempt class_ = some delay ∧ class_ ≠ .permanent ∧
        ∀ room < (durationMax : Int), RetryFits attempt class_ room job.retry ↔ delay ≤ room := by
  unfold retryDelay
  rw [hjob]
  dsimp only
  cases job.retry with
  | none => exact .inl ⟨rfl, fun _ => trivial⟩
  | exponential maxAttempts initialDelay maxDelay retryOn =>
    dsimp only
    by_cases hmax : (maxAttempts : Nat) ≤ attempt
    · exact .inl ⟨if_pos hmax, fun _ hlt => absurd hmax (by omega)⟩
    · rw [if_neg hmax]
      cases hcovers : RetryCondition.covers retryOn class_ with
      | false =>
        refine .inl ⟨if_pos ?_, fun _ _ h => by rw [hcovers] at h; cases h⟩
        cases class_ <;> simp_all [RetryCondition.covers]
      | true =>
        refine .inr ⟨_, if_neg ?_, ?_, fun room hroom => ?_⟩
        · cases class_ <;> simp_all [RetryCondition.covers]
        · rintro rfl
          cases hcovers
        · unfold RetryFits
          simp only [hcovers, forall_const, show attempt < (maxAttempts : Nat) by omega]
          omega

/-- How far chrono's last date is ahead. -/
def untilLast (now : DateTime) : Int := DateTime.maxUtc - now

theorem untilLast_eq (now : Int) :
    untilLast now = 8210266876799 * 10 ^ 9 + 999999999 - now := rfl

theorem minUtc_le {now : Int} (hnow : DateTime.inRange now = true) :
    -8334601228800 * 10 ^ 9 ≤ now :=
  (of_decide_eq_true hnow).1

/-- Whatever cannot be a `TimeDelta` leads beyond the last date as well. -/
theorem retryAt_eq {now : Int} (hnow : DateTime.inRange now = true) (delay : Duration) :
    retryAt now delay = if (delay : Int) ≤ untilLast now then some (now + delay) else none := by
  have hmin := minUtc_le hnow
  have hinRange (delta : Int) (h : 0 ≤ delta) :
      DateTime.inRange (now + delta) = true ↔ delta ≤ untilLast now := by
    refine decide_eq_true_iff.trans ?_
    show -8334601228800 * 10 ^ 9 ≤ now + delta ∧
      now + delta ≤ 8210266876799 * 10 ^ 9 + 999999999 ↔ _
    rw [untilLast_eq]
    omega
  unfold retryAt checkedAddSigned timeDeltaFromStd
  by_cases hfits : (delay : Int) ≤ timeDeltaMax
  · rw [if_pos hfits]
    exact if_congr (hinRange delay (by omega)) rfl rfl
  · rw [if_neg hfits]
    have hmax : untilLast now < timeDeltaMax := by
      rw [untilLast_eq, timeDeltaMax]
      omega
    rw [if_neg (show ¬(delay : Int) ≤ _ by omega)]
    exact if_neg fun h => absurd ((hinRange _ (by decide)).mp h) (not_le_of_gt hmax)

/-! ## 3. The failure -/

theorem forceDisable_quiet (env : Env) (a : SchedulerActor) (jobId : JobId) (reason : String) :
    (a.forceDisable env jobId reason).2.panicked = a.panicked ∧
      (a.forceDisable env jobId reason).2.timers.nextKey = a.timers.nextKey := by
  rcases forceDisable_cases env a jobId reason with ⟨he, -⟩ | ⟨job, -, -, he⟩
  · rw [he]
    exact ⟨rfl, rfl⟩
  · rw [he]
    exact ⟨rfl, (DelayQueue.nextKey_removeAll _ _ _).trans (DelayQueue.nextKey_removeKey _ _)⟩

theorem recordFinalFailure_quiet (env : Env) (a : SchedulerActor) (jobId : JobId)
    (error : String) (count : Bool) :
    (a.recordFinalFailure env jobId error count).panicked = a.panicked ∧
      (a.recordFinalFailure env jobId error count).timers.nextKey = a.timers.nextKey := by
  unfold recordFinalFailure
  split
  · exact ⟨rfl, rfl⟩
  · dsimp only
    split
    · exact forceDisable_quiet env _ jobId error
    · split <;> exact ⟨rfl, rfl⟩

theorem taken_of_nextKey {env : Env} {lag : Duration} {a' : SchedulerActor}
    (h : a'.timers.nextKey = a.timers.nextKey) : Taken env lag a a' := by
  intro entry hentry
  exact absurd (a'.timers.fresh _ _ hentry) (by omega)

theorem taken_scheduleRetry {env : Env} {lag : Duration} {b : SchedulerActor} (h : b.timers = a.timers)
    (version : Nat) (runId : RunId) (scheduledAt runAt : DateTime) :
    Taken env lag a (b.scheduleRetry env jobId version runId scheduledAt attempt runAt) ↔
      lag + (runAt - a.now env) ≤ (wheelReach : Int) := by
  have hentry : (b.scheduleRetry env jobId version runId scheduledAt attempt runAt).timers.get
      a.timers.nextKey = some ⟨jobId, version, runAt, .retry runId scheduledAt attempt⟩ := by
    simp [scheduleRetry, emit, h]
  unfold Taken
  rw [hentry]
  simp

/-- **A failure is handled** without a panic exactly when the delay that is granted ends before
    chrono's last date; and then the wheel takes the timer exactly when the delay is within its
    reach. This for every Job whose definition passes the compiler and the validator. -/
theorem retry_scheduled_iff {factory : TaskFactory} {definition : Proto.JobDefinition}
    {D : CompiledJob} {config : SchedulerConfig} (env : Env)
    (hcompiled : compileJob factory definition = .ok D)
    (hvalid : validateTrigger env.croner D.trigger D.options config = .ok ())
    (a : SchedulerActor) {job : JobEntry} (c : TaskCompletion)
    (hjob : a.jobs.get c.jobId = some job) (hretry : job.retry = D.options.retry)
    (hnow : (a.now env).inRange = true) (lag : Duration) (error : String) (class_ : FailureClass) :
    ((a.handleExecutionFailure env c error class_).panicked = false ↔ a.panicked = false ∧
        RetryFits c.attempt class_ (untilLast (a.now env)) D.options.retry) ∧
      ((a.handleExecutionFailure env c error class_).panicked = false →
        (Taken env lag a (a.handleExecutionFailure env c error class_) ↔
          RetryFits c.attempt class_ (wheelReach - lag) D.options.retry)) ∧
      PolicyOf definition config D.options.retry := by
  rw [← and_assoc]
  refine ⟨?_, policyOf hcompiled hvalid⟩
  rw [← hretry]
  unfold handleExecutionFailure
  rcases retryDelay_cases c.attempt class_ hjob with
    ⟨hnone, hfits⟩ | ⟨delay, hdelay, hclass, hfits⟩
  · -- no retry: nothing is added to the clock or to the queue
    have hquiet (a' : SchedulerActor) (h : a'.panicked = a.panicked ∧
        a'.timers.nextKey = a.timers.nextKey) : (a'.panicked = false ↔ a.panicked = false ∧
          RetryFits c.attempt class_ (untilLast (a.now env)) job.retry) ∧
        (a'.panicked = false → (Taken env lag a a' ↔
          RetryFits c.attempt class_ (wheelReach - lag) job.retry)) :=
      ⟨by rw [h.1]; exact ⟨fun hp => ⟨hp, hfits _⟩, And.left⟩,
        fun _ => iff_of_true (taken_of_nextKey h.2) (hfits _)⟩
    split
    · exact hquiet _ (forceDisable_quiet env _ _ _)
    · rw [hnone]
      exact hquiet _ (recordFinalFailure_quiet env _ _ _ _)
  · have hroom : untilLast (a.now env) < (durationMax : Int) := by
      have := minUtc_le hnow
      have := untilLast_eq (a.now env)
      unfold durationMax u64Max
      omega
    rw [if_neg hclass, hdelay]
    dsimp only
    rw [show (a.emit env _).now env = a.now env from rfl, retryAt_eq hnow, hfits _ hroom]
    by_cases hdate : (delay : Int) ≤ untilLast (a.now env)
    · rw [if_pos hdate]
      dsimp only
      refine ⟨⟨fun hp => ⟨hp, hdate⟩, And.left⟩, fun _ => ?_⟩
      rw [hfits _ (by unfold wheelReach durationMax u64Max; omega)]
      rw [taken_scheduleRetry]
      · show (lag : Int) + (a.now env + delay - a.now env) ≤ _ ↔ _
        omega
      · rfl
    · rw [if_neg hdate]
      simp [hdate]

/-- A failed poll is to be repeated after so many seconds. -/
def retryingDefinition (seconds : Nat) : Proto.JobDefinition :=
  { pollingDefinition 1 ⟨1, 0⟩ with
    options := some { retry := some (some (.exponential
      ⟨3, some ⟨seconds, 0⟩, some ⟨seconds, 0⟩, some ⟨true, true, true⟩⟩)) } }

/-- What such a definition compiles to. -/
def retryingJob (seconds : Nat) : CompiledJob :=
  { pollingJob 1 ⟨1, 0⟩ .skip with
    definition := retryingDefinition seconds
    options := { retry :=
      .exponential (Nat.toPNat' 3) (seconds * 10 ^ 9) (seconds * 10 ^ 9) ⟨true, true, true⟩ } }

/-- Its first execution is under way. -/
def retryingAgent (seconds : Nat) : SchedulerActor :=
  after .still { globalConcurrency := Nat.toPNat' 4 }
    [.command (.add (some 1) 1 true (retryingJob seconds).trigger (retryingJob seconds).task
      (retryingJob seconds).options), .expired [0]]

def firstFailure : TaskCompletion :=
  ⟨1, 1, 0, 1, 0, 0, .finished (.taskTransient "unreachable")⟩

/-- A poll that is repeated after a minute. -/
theorem retry_scheduled_in_a_minute :
    ((retryingAgent 60).handleExecutionFailure .still firstFailure "unreachable"
      .transient).panicked = false := by
  have hcompiled : compileJob .lenient (retryingDefinition 60) = .ok (retryingJob 60) := by
    decide +kernel
  have hvalid : validateTrigger Env.still.croner (retryingJob 60).trigger (retryingJob 60).options
      { globalConcurrency := 4 } = .ok () := by
    decide +kernel
  refine (retry_scheduled_iff .still hcompiled hvalid (retryingAgent 60) firstFailure rfl rfl
    (by decide +kernel) 0 "unreachable" .transient).1.mpr ⟨by decide +kernel, fun _ _ => ?_⟩
  decide +kernel

/-- **The scheduler dies.** A definition with a delay of nine trillion seconds compiles and passes
    every check. Its first attempt fails; the date of the second lies beyond the last one chrono
    knows. -/
theorem far_retry_kills_scheduler :
    compileJob .lenient (retryingDefinition (9 * 10 ^ 12)) = .ok (retryingJob (9 * 10 ^ 12)) ∧
      validateTrigger Env.still.croner (retryingJob (9 * 10 ^ 12)).trigger
        (retryingJob (9 * 10 ^ 12)).options { globalConcurrency := 4 } = .ok () ∧
      ((retryingAgent (9 * 10 ^ 12)).turn .still (.completion ⟨1, 1, 0, 1, 0,
        (retryingJob (9 * 10 ^ 12)).task.inner, none, .nonCancellable⟩ 0
          firstFailure.outcome)).panicked = true := by
  decide +kernel

end Smalux.Remote
