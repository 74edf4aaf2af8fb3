/-
  Subject:   The data model of the Agent's Job scheduler (model.rs, config.rs, event.rs, task.rs):
             schedules, policies, patches, the scheduler configuration, errors and events.

  Times are nanoseconds: `DateTime` (UTC, since the epoch) is an `Int`, `Duration` a `Nat`. Where
  chrono's range matters (`DateTime.inRange`) it is checked by the function that checks it in the
  source. `u64`, `u32` and `usize` are `Nat`; the places where the code meets a bound of theirs
  (`checked_add`, `wrapping_add`, `saturating_sub`) carry the bound.

  UUIDs are an identifier type of their own (`Uuid`, read as a number); the 16 bytes of the wire
  format are `Uuid.asBytes`.
-/
import Mathlib.Data.PNat.Basic

namespace Smalux.Scheduler

/-! ## 1. Identifiers, times -/

/-- A UUID, read as the number its 16 bytes spell. -/
abbrev Uuid := Nat

abbrev JobId := Uuid

/-- One logical execution; a retry keeps it. -/
abbrev RunId := Uuid

/-- The big-endian bytes of a number, `n` of them. -/
def bytesBE : Nat → Nat → List UInt8
  | 0, _ => []
  | n + 1, x => UInt8.ofNat (x / 256 ^ n) :: bytesBE n x

/-- `Uuid::as_bytes`. -/
def Uuid.asBytes (u : Uuid) : List UInt8 := bytesBE 16 u

/-- The two hexadecimal digits of a byte. -/
def hexByte (b : UInt8) : String :=
  String.ofList [Nat.digitChar (b.toNat / 16), Nat.digitChar (b.toNat % 16)]

/-- A UUID as text, `8-4-4-4-12`. -/
def Uuid.text (u : Uuid) : String :=
  let hex (i n : Nat) := String.join (((Uuid.asBytes u).drop i |>.take n).map hexByte)
  hex 0 4 ++ "-" ++ hex 4 2 ++ "-" ++ hex 6 2 ++ "-" ++ hex 8 2 ++ "-" ++ hex 10 6

abbrev DateTime := Int

abbrev Duration := Nat

def u64Max : Nat := 2 ^ 64 - 1

/-- `u64::checked_add(1)`. -/
def checkedSucc (n : Nat) : Option Nat := if n < u64Max then some (n + 1) else none

theorem checkedSucc_eq_some {n m : Nat} (h : checkedSucc n = some m) : m = n + 1 := by
  unfold checkedSucc at h
  split at h
  · exact (Option.some.inj h).symm
  · cases h

theorem checkedSucc_isSome (n : Nat) : (checkedSucc n).isSome = decide (n < u64Max) := by
  unfold checkedSucc
  split <;> simp [*]

/-- `u64::wrapping_add(1)`. -/
def wrappingSucc (n : Nat) : Nat := (n + 1) % 2 ^ 64

/-! ## 2. Triggers (model.rs) -/

/-- An IANA time zone, by name. -/
abbrev Tz := String

inductive Schedule where
  | once (at_ : DateTime)
  | interval (every : Duration) (startAt : Option DateTime)
  | cron (expression : String) (timezone : Tz)
  deriving DecidableEq, Repr

/-- `matches!(schedule, Schedule::Once { .. })`. -/
def Schedule.isOnce : Schedule → Bool
  | .once _ => true
  | _ => false

inductive MisfirePolicy where
  | skip
  | fireOnce
  | catchUp (maxRuns : ℕ+)
  deriving DecidableEq, Repr

structure Trigger where
  schedule : Schedule
  misfire : MisfirePolicy
  timeout : Option Duration
  deriving DecidableEq, Repr

/-- `0..=10`; the constructor of the source refuses anything else. -/
structure JobPriority where
  value : Nat
  le_ten : value ≤ 10
  deriving DecidableEq, Repr

def JobPriority.normal : JobPriority := ⟨5, by decide⟩

inductive TriggerCoalescing where
  | keepAll
  | keepLatest
  deriving DecidableEq, Repr

inductive CapacityPolicy where
  | backpressure
  | skipNewest
  | replaceOldestTrigger
  deriving DecidableEq, Repr

structure RetryCondition where
  transientError : Bool := true
  timeout : Bool := true
  panic : Bool := false
  deriving DecidableEq, Repr

inductive ExecutionRetryPolicy where
  | none
  | exponential (maxAttempts : ℕ+) (initialDelay maxDelay : Duration) (retryOn : RetryCondition)
  deriving DecidableEq, Repr

structure FailurePolicy where
  disableAfterConsecutiveFailures : Option ℕ+ := some (Nat.toPNat' 5)
  countTimeout : Bool := true
  countPanic : Bool := true
  deriving DecidableEq, Repr

structure JobOptions where
  concurrency : Option ℕ+ := none
  maxPending : Option Nat := none
  priority : JobPriority := JobPriority.normal
  coalescing : Option TriggerCoalescing := none
  capacity : Option CapacityPolicy := none
  retry : ExecutionRetryPolicy := .none
  failure : FailurePolicy := {}
  deriving DecidableEq, Repr

/-! ## 3. Tasks (task.rs) -/

inductive TaskCancellationMode where
  | cooperative
  | nonCancellable
  deriving DecidableEq, Repr

/-- Which adapter wraps the task; it decides which results an execution can report.
    `reporting` carries the business revision its reports are stamped with. -/
inductive TaskAdapter where
  | action
  | channel
  | callback
  | reporting (jobRevision : Nat)
  deriving DecidableEq, Repr

/-- A type-erased task: the scheduler sees its name and, through the results, its adapter. `body`
    tells two tasks of one kind apart. -/
structure ScheduledTask where
  kind : String
  adapter : TaskAdapter
  body : String
  deriving DecidableEq, Repr

structure TaskBinding where
  inner : ScheduledTask
  cancellationMode : TaskCancellationMode
  deriving DecidableEq, Repr

inductive TaskRunResult where
  | completed
  | outputDelivered
  | taskTransient (error : String)
  | taskPermanent (error : String)
  | callbackTransient (error : String)
  | callbackPermanent (error : String)
  | channelClosed
  deriving DecidableEq, Repr

/-- The results the adapter's `execute` can return. Task errors come from every adapter. -/
def TaskAdapter.canReturn : TaskAdapter → TaskRunResult → Bool
  | _, .taskTransient _ => true
  | _, .taskPermanent _ => true
  | .action, .completed => true
  | .channel, .outputDelivered => true
  | .channel, .channelClosed => true
  | .callback, .outputDelivered => true
  | .callback, .callbackTransient _ => true
  | .callback, .callbackPermanent _ => true
  | .reporting _, .outputDelivered => true
  | .reporting _, .callbackTransient _ => true
  | .reporting _, .callbackPermanent _ => true
  | _, _ => false

/-! ## 4. Patches and reconcile plans (model.rs) -/

inductive PatchValue (α : Type) where
  | keep
  | set (value : α)
  | inherit_
  deriving DecidableEq, Repr

inductive RescheduleMode where
  | preserve
  | recalculate
  | runNow
  deriving DecidableEq, Repr

structure JobPatch where
  task : Option TaskBinding := none
  trigger : Option Trigger := none
  concurrency : PatchValue ℕ+ := .keep
  maxPending : PatchValue Nat := .keep
  priority : Option JobPriority := none
  coalescing : Option TriggerCoalescing := none
  capacity : Option CapacityPolicy := none
  retry : Option ExecutionRetryPolicy := none
  failure : Option FailurePolicy := none
  reschedule : RescheduleMode := .preserve
  deriving DecidableEq, Repr

structure SchedulerReconcileUpdate where
  jobId : JobId
  expectedVersion : Nat
  patch : JobPatch
  enabled : Bool
  deriving DecidableEq, Repr

structure SchedulerReconcileAddition where
  jobId : JobId
  enabled : Bool
  trigger : Trigger
  task : TaskBinding
  options : JobOptions
  deriving DecidableEq, Repr

structure SchedulerReconcilePlan where
  updates : List SchedulerReconcileUpdate := []
  additions : List SchedulerReconcileAddition := []
  deletions : List (JobId × Nat) := []
  deriving DecidableEq, Repr

inductive JobState where
  | enabled
  | completed
  | disabled (reason : String)
  deriving DecidableEq, Repr

/-! ## 5. Configuration and errors (config.rs) -/

structure SchedulerConfig where
  globalConcurrency : ℕ+
  defaultJobConcurrency : ℕ+ := Nat.toPNat' 1
  globalMaxPending : Nat := 8192
  defaultJobMaxPending : Nat := 1024
  dueBatchSize : ℕ+ := Nat.toPNat' 256
  maxJobs : Nat := 1024
  eventChannelCapacity : Nat := 1024
  commandChannelCapacity : Nat := 256
  shutdownTimeout : Duration := 30 * 10 ^ 9
  minimumInterval : Duration := 100 * 10 ^ 6
  minimumRetryDelay : Duration := 100 * 10 ^ 6
  maximumCatchUp : Nat := 1000
  maximumRetryAttempts : Nat := 1000
  deriving DecidableEq, Repr

structure SchedulerConfigPatch where
  globalConcurrency : Option ℕ+ := none
  defaultJobConcurrency : Option ℕ+ := none
  globalMaxPending : Option Nat := none
  defaultJobMaxPending : Option Nat := none
  dueBatchSize : Option ℕ+ := none
  maxJobs : Option Nat := none
  shutdownTimeout : Option Duration := none
  minimumInterval : Option Duration := none
  minimumRetryDelay : Option Duration := none
  maximumCatchUp : Option Nat := none
  maximumRetryAttempts : Option Nat := none
  deriving DecidableEq, Repr

structure SchedulerConfigSnapshot where
  revision : Nat
  config : SchedulerConfig
  deriving DecidableEq, Repr

/-- The errors the actor answers with, and the two its callers meet elsewhere: the handle's when the
    actor is gone, and the priority's when it is out of bounds. -/
inductive SchedulerError where
  | closed
  | invalidPriority (priority : Nat)
  | jobNotFound (jobId : JobId)
  | jobAlreadyExists (jobId : JobId)
  | versionConflict (jobId : JobId) (expected actual : Nat)
  | configRevisionConflict (expected actual : Nat)
  | maximumJobsReached (limit : Nat)
  | invalidTrigger (message : String)
  | invalidRetry (message : String)
  | versionOverflow (jobId : JobId)
  | configRevisionOverflow
  | actor (message : String)
  deriving DecidableEq, Repr

/-- `Display`. -/
def SchedulerError.text : SchedulerError → String
  | .closed => "scheduler is closed"
  | .invalidPriority priority => "priority " ++ toString priority ++ " is outside 0..=10"
  | .jobNotFound jobId => "job `" ++ Uuid.text jobId ++ "` was not found"
  | .jobAlreadyExists jobId => "job `" ++ Uuid.text jobId ++ "` already exists"
  | .versionConflict jobId expected actual =>
    "job `" ++ Uuid.text jobId ++ "` version conflict: expected " ++ toString expected ++
      ", actual " ++ toString actual
  | .configRevisionConflict expected actual =>
    "scheduler config revision conflict: expected " ++ toString expected ++
      ", actual " ++ toString actual
  | .maximumJobsReached limit => "maximum job count " ++ toString limit ++ " has been reached"
  | .invalidTrigger message => "invalid trigger: " ++ message
  | .invalidRetry message => "invalid retry policy: " ++ message
  | .versionOverflow jobId => "job `" ++ Uuid.text jobId ++ "` version overflow"
  | .configRevisionOverflow => "scheduler config revision overflow"
  | .actor message => "scheduler actor failed: " ++ message

/-! ## 6. Events (event.rs) -/

inductive SchedulerEventKind where
  | schedulerStarted
  | schedulerConfigUpdated (revision : Nat)
  | jobAdded (jobId : JobId) (version : Nat)
  | jobUpdated (jobId : JobId) (version : Nat)
  | jobEnabled (jobId : JobId) (version : Nat)
  | jobDisabled (jobId : JobId) (version : Nat) (reason : String)
  | jobDeleted (jobId : JobId) (version : Nat)
  | triggerScheduled (jobId : JobId) (version : Nat) (runAt : DateTime)
  | triggerSkipped (jobId : JobId) (version : Nat) (scheduledAt : DateTime) (reason : String)
  | executionQueued (jobId : JobId) (version : Nat) (runId : RunId) (pendingCount : Nat)
  | executionStarted (jobId : JobId) (version : Nat) (runId : RunId) (attempt : Nat)
      (scheduledAt : DateTime)
  | executionSucceeded (jobId : JobId) (version : Nat) (runId : RunId) (attempt : Nat)
      (durationMs : Nat)
  | executionFailed (jobId : JobId) (version : Nat) (runId : RunId) (attempt : Nat)
      (error : String) (willRetry : Bool)
  | executionTimedOut (jobId : JobId) (version : Nat) (runId : RunId) (attempt : Nat)
  | executionPanicked (jobId : JobId) (version : Nat) (runId : RunId) (attempt : Nat)
      (message : String)
  | executionCancelled (jobId : JobId) (version : Nat) (runId : RunId)
  | retryScheduled (jobId : JobId) (version : Nat) (runId : RunId) (attempt : Nat)
      (runAt : DateTime)
  | outputDelivered (jobId : JobId) (version : Nat) (runId : RunId)
  | callbackFailed (jobId : JobId) (version : Nat) (runId : RunId) (error : String)
  | outputChannelClosed (jobId : JobId) (version : Nat) (runId : RunId)
  | pendingReplaced (jobId : JobId) (removedRunId replacementRunId : RunId)
  | backpressureApplied (jobId : JobId) (version : Nat)
  deriving DecidableEq, Repr

structure SchedulerEvent where
  sequence : Nat
  emittedAt : DateTime
  kind : SchedulerEventKind
  deriving DecidableEq, Repr

/-- The consistent snapshot of one Job handed to callers. -/
structure JobSnapshot where
  id : JobId
  version : Nat
  taskKind : String
  state : JobState
  trigger : Trigger
  priority : JobPriority
  concurrency : Nat
  maxPending : Nat
  runningCount : Nat
  pendingCount : Nat
  consecutiveFailures : Nat
  nextRunAt : Option DateTime
  lastStartedAt : Option DateTime
  lastFinishedAt : Option DateTime
  lastOutcome : Option String
  createdAt : DateTime
  updatedAt : DateTime
  deriving DecidableEq, Repr

end Smalux.Scheduler
