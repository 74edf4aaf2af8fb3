/-
  Subject:   Trigger checks, misfire handling and the next occurrence of a schedule (timing.rs).

  chrono and croner are not part of the repository. chrono is written out as far as it is used:
  its range (`DateTime.inRange`), the range of a `TimeDelta` and the checked addition. croner is a
  parameter (`Croner`): whether an expression parses, and the first occurrence after a time.
-/
import Smalux.Scheduler.Model

namespace Smalux.Scheduler

/-! ## 1. chrono and croner -/

/-- The first and the last nanosecond a `DateTime<Utc>` can hold. -/
def DateTime.minUtc : DateTime := -8334601228800 * 10 ^ 9

def DateTime.maxUtc : DateTime := 8210266876799 * 10 ^ 9 + 999999999

def DateTime.inRange (t : DateTime) : Bool := decide (DateTime.minUtc ≤ t ∧ t ≤ DateTime.maxUtc)

/-- The largest `TimeDelta`: `i64::MAX` milliseconds. -/
def timeDeltaMax : Int := (2 ^ 63 - 1) * 10 ^ 6

/-- `TimeDelta::from_std`. -/
def timeDeltaFromStd (d : Duration) : Except String Int :=
  if (d : Int) ≤ timeDeltaMax then .ok d
  else .error "Source duration value is out of range for the target type"

/-- `DateTime::checked_add_signed`. -/
def checkedAddSigned (t : DateTime) (delta : Int) : Option DateTime :=
  if DateTime.inRange (t + delta) then some (t + delta) else none

/-- The cron library: parsing an expression, and the first occurrence strictly after a time in a
    time zone. An expression may parse and yet have no occurrence left. -/
structure Croner where
  parse : String → Except String Unit
  findNextOccurrence : String → Tz → DateTime → Except String DateTime

/-- The fraction of a `Duration` in its `Debug` form, without trailing zeros. -/
def fractionDigits : Nat → Nat → Nat → String
  | 0, _, _ => ""
  | _, 0, _ => ""
  | fuel + 1, rest, unit =>
    toString (rest / unit) ++ fractionDigits fuel (rest % unit) (unit / 10)

def decimalWith (whole rest unit : Nat) (suffix : String) : String :=
  toString whole ++ (if rest = 0 then "" else "." ++ fractionDigits 9 rest unit) ++ suffix

/-- `{:?}` of a `Duration`. -/
def Duration.debug (d : Duration) : String :=
  if 10 ^ 9 ≤ d then decimalWith (d / 10 ^ 9) (d % 10 ^ 9) (10 ^ 8) "s"
  else if 10 ^ 6 ≤ d then decimalWith (d / 10 ^ 6) (d % 10 ^ 6) (10 ^ 5) "ms"
  else if 10 ^ 3 ≤ d then decimalWith (d / 10 ^ 3) (d % 10 ^ 3) (10 ^ 2) "µs"
  else toString d ++ "ns"

example : Duration.debug (100 * 10 ^ 6) = "100ms" := by decide

example : Duration.debug (1500 * 10 ^ 6) = "1.5s" := by decide

/-! ## 2. Checks -/

/-- Whether the trigger must not lose an occurrence by default. -/
def Trigger.lossless (trigger : Trigger) : Bool :=
  match trigger.schedule, trigger.misfire with
  | .once _, _ => true
  | _, .catchUp _ => true
  | _, _ => false

/-- The coalescing and capacity policies a Job ends up with. -/
def effectiveQueuePolicies (trigger : Trigger) (options : JobOptions) :
    TriggerCoalescing × CapacityPolicy :=
  (options.coalescing.getD (if trigger.lossless then .keepAll else .keepLatest),
   options.capacity.getD (if trigger.lossless then .backpressure else .replaceOldestTrigger))

def validateConfig (config : SchedulerConfig) : Except SchedulerError Unit :=
  if config.globalMaxPending = 0 ∨ config.defaultJobMaxPending = 0 ∨ config.maxJobs = 0 ∨
      config.eventChannelCapacity = 0 ∨ config.commandChannelCapacity = 0 ∨
      config.minimumInterval = 0 ∨ config.minimumRetryDelay = 0 ∨ config.maximumCatchUp = 0 ∨
      config.maximumRetryAttempts = 0 then
    .error (.actor "scheduler capacities and safety limits must be greater than zero")
  else .ok ()

variable (cr : Croner) {trigger : Trigger} {options : JobOptions} {config : SchedulerConfig}

/-- The schedule part of `validate_trigger`. -/
def validateSchedule (config : SchedulerConfig) : Schedule → Except SchedulerError Unit
  | .interval every _ =>
    if every < config.minimumInterval then
      .error (.invalidTrigger
        ("interval must be at least " ++ Duration.debug config.minimumInterval))
    else .ok ()
  | .cron expression _ =>
    match cr.parse expression with
    | .error e => .error (.invalidTrigger e)
    | .ok _ => .ok ()
  | .once _ => .ok ()

/-- The catch-up part of `validate_trigger`: a bounded count and lossless queue policies. -/
def validateMisfire (trigger : Trigger) (options : JobOptions) (config : SchedulerConfig) :
    Except SchedulerError Unit :=
  match trigger.misfire with
  | .catchUp maxRuns =>
    if config.maximumCatchUp < maxRuns then
      .error (.invalidTrigger ("catch-up count exceeds " ++ toString config.maximumCatchUp))
    else if effectiveQueuePolicies trigger options ≠ (.keepAll, .backpressure) then
      .error (.invalidTrigger "catch-up requires keep-all coalescing and backpressure capacity")
    else .ok ()
  | _ => .ok ()

theorem validateMisfire_congr {options' : JobOptions}
    (h : effectiveQueuePolicies trigger options = effectiveQueuePolicies trigger options') :
    validateMisfire trigger options config = validateMisfire trigger options' config := by
  unfold validateMisfire
  rw [h]

/-- The retry part of `validate_trigger`. -/
def validateRetry (retry : ExecutionRetryPolicy) (config : SchedulerConfig) :
    Except SchedulerError Unit :=
  match retry with
  | .exponential maxAttempts initialDelay maxDelay _ =>
    if config.maximumRetryAttempts < maxAttempts ∨ initialDelay < config.minimumRetryDelay ∨
        maxDelay < initialDelay then
      .error (.invalidRetry "retry attempts or delays violate scheduler limits")
    else .ok ()
  | .none => .ok ()

/-- Trigger, options and configuration checked together. -/
def validateTrigger (trigger : Trigger) (options : JobOptions) (config : SchedulerConfig) :
    Except SchedulerError Unit := do
  if options.maxPending = some 0 then
    throw (.invalidTrigger "job pending capacity must be greater than zero")
  validateSchedule cr config trigger.schedule
  validateMisfire trigger options config
  validateRetry options.retry config

theorem validateTrigger_ok {u : Unit} (h : validateTrigger cr trigger options config = .ok u) :
    options.maxPending ≠ some 0 ∧ validateSchedule cr config trigger.schedule = .ok () ∧
      validateMisfire trigger options config = .ok () ∧
      validateRetry options.retry config = .ok () := by
  unfold validateTrigger at h
  split at h
  · cases h
  · rename_i hm
    cases hs : validateSchedule cr config trigger.schedule with
    | error => rw [hs] at h; cases h
    | ok _ =>
      cases hf : validateMisfire trigger options config with
      | error => rw [hs, hf] at h; cases h
      | ok => exact ⟨hm, rfl, rfl, by rw [hs, hf] at h; exact h⟩

theorem validateTrigger_of (hm : options.maxPending ≠ some 0)
    (hs : validateSchedule cr config trigger.schedule = .ok ())
    (hf : validateMisfire trigger options config = .ok ())
    (hr : validateRetry options.retry config = .ok ()) :
    validateTrigger cr trigger options config = .ok () := by
  unfold validateTrigger
  rw [if_neg hm, hs, hf, hr]
  rfl

/-- An interval that passed the check is not below the minimum. -/
theorem minimumInterval_le {every : Duration} {startAt : Option DateTime}
    (h : validateSchedule cr config (.interval every startAt) = .ok ()) :
    config.minimumInterval ≤ every := by
  unfold validateSchedule at h
  dsimp only at h
  split at h
  · cases h
  · exact Nat.le_of_not_lt ‹_›

/-- Catch-up that passed the check loses nothing in the queue. -/
theorem catchUp_lossless {maxRuns : ℕ+} (h : validateMisfire trigger options config = .ok ())
    (hm : trigger.misfire = .catchUp maxRuns) :
    effectiveQueuePolicies trigger options = (.keepAll, .backpressure) := by
  unfold validateMisfire at h
  rw [hm] at h
  dsimp only at h
  split at h
  · cases h
  · split at h
    · cases h
    · exact Decidable.not_not.mp ‹_›

/-- A task that cannot be cancelled cannot have a scheduler timeout either. -/
def validateTaskCancellationMode (trigger : Trigger) (mode : TaskCancellationMode) :
    Except SchedulerError Unit :=
  if mode = .nonCancellable ∧ trigger.timeout.isSome then
    .error (.invalidTrigger "a wait-for-completion task cannot use scheduler timeout")
  else .ok ()

/-! ## 3. Occurrences -/

/-- The next planned time strictly after `after`; a one-shot schedule has none. -/
def nextAfter (schedule : Schedule) (after : DateTime) : Except SchedulerError (Option DateTime) :=
  match schedule with
  | .once _ => .ok none
  | .interval every _ =>
    match timeDeltaFromStd every with
    | .error e => .error (.invalidTrigger e)
    | .ok delta =>
      match checkedAddSigned after delta with
      | some next => .ok (some next)
      | none => .error (.invalidTrigger "next interval occurrence overflowed")
  | .cron expression timezone =>
    match cr.parse expression with
    | .error e => .error (.invalidTrigger e)
    | .ok _ =>
      match cr.findNextOccurrence expression timezone after with
      | .error e => .error (.invalidTrigger e)
      | .ok next => .ok (some next)

/-- The first planned time of a Job that is registered or re-enabled at `now`. -/
def firstRunAt (trigger : Trigger) (now : DateTime) : Except SchedulerError DateTime :=
  match trigger.schedule with
  | .once at_ => .ok (max at_ now)
  | .interval _ startAt => .ok (startAt.getD now)
  | .cron _ _ =>
    match nextAfter cr trigger.schedule now with
    | .error e => .error e
    | .ok (some next) => .ok next
    | .ok none => .error (.invalidTrigger "cron has no future occurrence")

/-- `datetime_from_nanos`: back into chrono's range, or an error. -/
def datetimeFromNanos (value : Int) : Except SchedulerError DateTime :=
  if value / 10 ^ 9 < -2 ^ 63 ∨ 2 ^ 63 ≤ value / 10 ^ 9 then
    .error (.invalidTrigger "future interval occurrence overflowed")
  else if DateTime.inRange value then .ok value
  else .error (.invalidTrigger "future interval occurrence is out of range")

/-- The bounds of `i128`. -/
def i128InRange (x : Int) : Bool := decide (-2 ^ 127 ≤ x ∧ x < 2 ^ 127)

/-- The next planned time strictly after `now`, on the phase of `anchor`, in one division. -/
def nextFutureOccurrence (schedule : Schedule) (anchor now : DateTime) :
    Except SchedulerError (Option DateTime) :=
  match schedule with
  | .once _ => .ok none
  | .cron _ _ => nextAfter cr schedule now
  | .interval every _ =>
    if ¬ i128InRange every then .error (.invalidTrigger "interval is too large")
    else if every = 0 then .error (.invalidTrigger "interval must be greater than zero")
    else
      let steps := max (now - anchor) 0 / every + 1
      if ¬ i128InRange (steps * every) ∨ ¬ i128InRange (anchor + steps * every) then
        .error (.invalidTrigger "future interval occurrence overflowed")
      else
        match datetimeFromNanos (anchor + steps * every) with
        | .error e => .error e
        | .ok next => .ok (some next)

/-- What a timer that came due at `scheduled_at` produces. -/
structure DueSchedule where
  occurrences : List DateTime
  next : Option DateTime
  deriving DecidableEq, Repr

/-- The catch-up loop of `due_occurrences`: planned times up to `now`, at most `room` more. -/
def catchUpLoop (schedule : Schedule) (now : DateTime) :
    Nat → List DateTime → Option DateTime → Except SchedulerError DueSchedule
  | 0, occurrences, next => .ok ⟨occurrences, next⟩
  | room + 1, occurrences, some value =>
    if value ≤ now then
      match nextAfter cr schedule value with
      | .error e => .error e
      | .ok next => catchUpLoop schedule now room (occurrences ++ [value]) next
    else .ok ⟨occurrences, some value⟩
  | _ + 1, occurrences, none => .ok ⟨occurrences, none⟩

/-- `next.is_some_and(|value| value <= now)`. -/
def missed (next : Option DateTime) (now : DateTime) : Bool :=
  match next with
  | some value => decide (value ≤ now)
  | none => false

/-- The executions of one expiry and the next normal occurrence, by the misfire policy. -/
def dueOccurrences (trigger : Trigger) (scheduledAt now : DateTime) (maximumCatchUp : Nat) :
    Except SchedulerError DueSchedule :=
  if trigger.schedule.isOnce then .ok ⟨[scheduledAt], none⟩
  else
    match nextAfter cr trigger.schedule scheduledAt with
    | .error e => .error e
    | .ok next =>
      if ¬ missed next now then .ok ⟨[scheduledAt], next⟩
      else
        match trigger.misfire with
        | .skip =>
          match nextFutureOccurrence cr trigger.schedule scheduledAt now with
          | .error e => .error e
          | .ok next => .ok ⟨[], next⟩
        | .fireOnce =>
          match nextFutureOccurrence cr trigger.schedule scheduledAt now with
          | .error e => .error e
          | .ok next => .ok ⟨[now], next⟩
        | .catchUp maxRuns =>
          -- the first occurrence is taken before the loop, so it runs at most `limit - 1` times
          match catchUpLoop cr trigger.schedule now (min (maxRuns : Nat) maximumCatchUp - 1)
              [scheduledAt] next with
          | .error e => .error e
          | .ok due =>
            if missed due.next now then
              match nextFutureOccurrence cr trigger.schedule scheduledAt now with
              | .error e => .error e
              | .ok next => .ok ⟨due.occurrences, next⟩
            else .ok due

end Smalux.Scheduler
