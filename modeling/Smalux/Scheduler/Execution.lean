/-
  Subject:   Starting executions and handling their results (execution.rs).

  * `dispatchReady` -- executions start while the global and the Job's limit allow;
  * `handleCompletion` -- a finished execution gives its slot back and, if its Job is still at the
    version it started under, decides what becomes of the Job;
  * `SpawnedTask.possible` -- which results the wrapper of an execution can report.
-/
import Smalux.Scheduler.Management

namespace Smalux.Scheduler

open Lib

/-- `FailureClass`. -/
inductive FailureClass where
  | transient
  | permanent
  | timeout
  | panic
  deriving DecidableEq, Repr

/-- The largest `Duration`: `u64::MAX` seconds and 999999999 nanoseconds. -/
def durationMax : Duration := u64Max * 10 ^ 9 + 999999999

/-- `duration_ms`, saturating. -/
def durationMs (elapsed : Duration) : Nat := min (elapsed / 10 ^ 6) u64Max

/-- How the wrapper of an execution can end: the adapter's results, a timeout if the trigger has
    one, a panic, and cancellation if the task cooperates and its token was cancelled. -/
def SpawnedTask.possible (task : SpawnedTask) (cancelled : Bool) : CompletionOutcome → Bool
  | .finished result => task.task.adapter.canReturn result
  | .timedOut => task.timeout.isSome
  | .panicked _ => true
  | .cancelled => decide (task.cancellationMode = .cooperative) && cancelled

def SpawnedTask.completion (task : SpawnedTask) (elapsed : Duration) (outcome : CompletionOutcome) :
    TaskCompletion where
  jobId := task.jobId
  version := task.version
  runId := task.runId
  attempt := task.attempt
  scheduledAt := task.scheduledAt
  elapsed := elapsed
  outcome := outcome

namespace SchedulerActor

variable (env : Env)

variable (a : SchedulerActor) (job : JobEntry) (jobId : JobId) (c : TaskCompletion)

/-! ## 1. Dispatch -/

def concurrencyLimit : Nat :=
  ((job.concurrency.getD a.config.defaultJobConcurrency : ℕ+) : Nat)

/-- The predicate `dispatch_ready` hands to the queue. -/
def canRun (pending : PendingExecution) : Bool :=
  match a.jobs.get pending.jobId with
  | none => false
  | some job =>
    decide (job.version = pending.version) && decide (job.state = .enabled) &&
      decide (job.runningCount < a.concurrencyLimit job)

/-- What a start changes in the Job. -/
def startEntry (startedAt scheduledAt : DateTime) (job : JobEntry) : JobEntry :=
  { job with
    runningCount := job.runningCount + 1
    lastStartedAt := some startedAt
    lastFiredAt := some scheduledAt }

/-- Take the slots and hand the execution to the `JoinSet`. -/
def spawnExecution (pending : PendingExecution) : SchedulerActor :=
  match a.jobs.get pending.jobId with
  | none => a
  | some job =>
    if job.version ≠ pending.version then a
    else
      let a := a.tick.modifyJob pending.jobId (startEntry (a.now env) pending.scheduledAt)
      let a :=
        { a with
          totalRunning := a.totalRunning + 1
          running := a.running.insert pending.runId ⟨pending.jobId, pending.version, false⟩ }
      let a := a.emit env (.executionStarted pending.jobId pending.version pending.runId
        pending.attempt pending.scheduledAt)
      { a with
        tasks := a.tasks ++
          [{ jobId := pending.jobId, version := pending.version, runId := pending.runId,
             attempt := pending.attempt, scheduledAt := pending.scheduledAt, task := job.task,
             timeout := job.trigger.timeout, cancellationMode := job.cancellationMode }] }

/-- The loop of `dispatch_ready`; every round starts one execution or ends it. -/
def dispatchLoop : Nat → SchedulerActor → SchedulerActor
  | 0, a => a
  | fuel + 1, a =>
    if a.totalRunning < a.config.globalConcurrency ∧ 0 < a.ready.len then
      match a.ready.popDispatchable a.canRun with
      | (none, ready) => { a with ready := ready }
      | (some pending, ready) =>
        dispatchLoop fuel (({ a with ready := ready }).spawnExecution env pending)
    else a

def dispatchReady : SchedulerActor := dispatchLoop env a.ready.len a

/-! ## 2. Failures -/

/-- Exponential backoff of the next attempt, if the policy grants one. -/
def retryDelay (attempt : Nat) (class_ : FailureClass) : Option Duration :=
  match a.jobs.get jobId with
  | none => none
  | some job =>
    match job.retry with
    | .none => none
    | .exponential maxAttempts initialDelay maxDelay retryOn =>
      if (maxAttempts : Nat) ≤ attempt then none
      else
        let enabled :=
          match class_ with
          | .transient => retryOn.transientError
          | .timeout => retryOn.timeout
          | .panic => retryOn.panic
          | .permanent => false
        if !enabled then none
        else
          let exponent := min (attempt - 1) 31
          some (min (min (initialDelay * 2 ^ exponent) durationMax) maxDelay)

/-- What a final failure leaves of a Job. -/
def failEntry (error : String) (count : Bool) (job : JobEntry) : JobEntry :=
  { job with
    lastOutcome := some error
    consecutiveFailures :=
      if count then min (job.consecutiveFailures + 1) (2 ^ 32 - 1) else job.consecutiveFailures }

/-- Whether the Job has failed too often. -/
def thresholdReached : Bool :=
  match job.failure.disableAfterConsecutiveFailures with
  | none => false
  | some limit => decide ((limit : Nat) ≤ job.consecutiveFailures)

/-- A one-shot Job has had its run. -/
def completeEntry (now : DateTime) (job : JobEntry) : JobEntry :=
  { job with state := .completed, updatedAt := now }

/-- A final failure: the Job is disabled at its threshold, a one-shot Job is completed. -/
def recordFinalFailure (error : String) (count : Bool) : SchedulerActor :=
  match a.jobs.get jobId with
  | none => a
  | some job =>
    let a := a.modifyJob jobId (failEntry error count)
    if thresholdReached (failEntry error count job) then (a.forceDisable env jobId error).2
    else if job.trigger.schedule.isOnce then
      a.tick.modifyJob jobId (completeEntry (a.now env))
    else a

/-- Whether a final failure of this class counts towards the threshold. -/
def failureCounts : FailureClass → Bool
  | .timeout => ((a.jobs.get jobId).map fun job => job.failure.countTimeout).getD true
  | .panic => ((a.jobs.get jobId).map fun job => job.failure.countPanic).getD true
  | _ => true

/-- `Utc::now() + TimeDelta::from_std(delay).unwrap_or(TimeDelta::MAX)`; the addition panics when
    it leaves chrono's range. -/
def retryAt (now : DateTime) (delay : Duration) : Option DateTime :=
  checkedAddSigned now ((timeDeltaFromStd delay).toOption.getD timeDeltaMax)

/-- A failed attempt: disable at once, retry, or count a final failure. -/
def handleExecutionFailure (error : String) (class_ : FailureClass) : SchedulerActor :=
  if class_ = .permanent then
    let a := a.emit env (.executionFailed c.jobId c.version c.runId c.attempt error false)
    (a.forceDisable env c.jobId error).2
  else
    let retry := a.retryDelay c.jobId c.attempt class_
    let a := a.emit env (.executionFailed c.jobId c.version c.runId c.attempt error retry.isSome)
    match retry with
    | some delay =>
      match retryAt (a.now env) delay with
      | some runAt =>
        a.tick.scheduleRetry env c.jobId c.version c.runId c.scheduledAt (c.attempt + 1) runAt
      | none => { a with panicked := true }
    | none => a.recordFinalFailure env c.jobId error (a.failureCounts c.jobId class_)

/-! ## 3. Completions -/

/-- What the end of an execution changes in the Job, whatever the result. -/
def releaseEntry (now : DateTime) (job : JobEntry) : JobEntry :=
  { job with runningCount := job.runningCount - 1, lastFinishedAt := some now }

/-- Give the slots of an execution back. -/
def release (runId : RunId) : SchedulerActor :=
  let now := a.now env
  let a := { a with running := a.running.remove runId, totalRunning := a.totalRunning - 1 }
  a.tick.modifyJob jobId (releaseEntry now)

theorem get_release (runId : RunId) : (a.release env jobId runId).jobs.get jobId =
      (a.jobs.get jobId).map (releaseEntry (a.now env)) :=
  (Table.get_modify a.jobs jobId jobId _).trans (if_pos rfl)

/-- Whether the Job is at the given version. -/
def atVersion (version : Nat) : Bool :=
  ((a.jobs.get jobId).map fun job => decide (job.version = version)).getD false

theorem atVersion_iff {a : SchedulerActor} {jobId : JobId} {version : Nat} :
    a.atVersion jobId version = true ↔ ∃ job, a.jobs.get jobId = some job ∧ job.version = version := by
  unfold atVersion
  cases a.jobs.get jobId with
  | none | some => simp

/-- Give the slots back; whether the Job is still at the version the execution started under. -/
def releaseExecutionResources : Bool × SchedulerActor :=
  let a := a.release env c.jobId c.runId
  (a.atVersion c.jobId c.version, a)

/-- What a success changes in the Job. -/
def successEntry : JobEntry :=
  { job with
    consecutiveFailures := 0
    lastOutcome := some "success"
    state := if job.trigger.schedule.isOnce then .completed else job.state }

def recordExecutionSuccess (outputDelivered : Bool) : SchedulerActor :=
  let a := a.modifyJob c.jobId successEntry
  let a := a.emit env (.executionSucceeded c.jobId c.version c.runId c.attempt (durationMs c.elapsed))
  if outputDelivered then a.emit env (.outputDelivered c.jobId c.version c.runId) else a

def recordCallbackFailure (error : String) (permanent : Bool) : SchedulerActor :=
  let a := a.emit env (.callbackFailed c.jobId c.version c.runId error)
  if permanent then (a.forceDisable env c.jobId error).2
  else a.recordFinalFailure env c.jobId error false

/-- The receiver of the output is gone: the Job is deleted. -/
def handleClosedOutputChannel : SchedulerActor :=
  let a := a.emit env (.outputChannelClosed c.jobId c.version c.runId)
  let a := a.cancelJobVersion c.jobId c.version
  (a.deleteJob env c.jobId c.version true).2

def handleExecutionTimeout : SchedulerActor :=
  let a := a.emit env (.executionTimedOut c.jobId c.version c.runId c.attempt)
  a.handleExecutionFailure env c "task execution timed out" .timeout

def handleExecutionPanic (message : String) : SchedulerActor :=
  let a := a.emit env (.executionPanicked c.jobId c.version c.runId c.attempt message)
  a.handleExecutionFailure env c message .panic

def recordExecutionCancelled : SchedulerActor :=
  a.emit env (.executionCancelled c.jobId c.version c.runId)

/-- What the result of an execution of the current version does. -/
def handleOutcome : SchedulerActor :=
  match c.outcome with
  | .finished .completed => a.recordExecutionSuccess env c false
  | .finished .outputDelivered => a.recordExecutionSuccess env c true
  | .finished (.taskTransient error) => a.handleExecutionFailure env c error .transient
  | .finished (.taskPermanent error) => a.handleExecutionFailure env c error .permanent
  | .finished (.callbackTransient error) => a.recordCallbackFailure env c error false
  | .finished (.callbackPermanent error) => a.recordCallbackFailure env c error true
  | .finished .channelClosed => a.handleClosedOutputChannel env c
  | .timedOut => a.handleExecutionTimeout env c
  | .panicked message => a.handleExecutionPanic env c message
  | .cancelled => a.recordExecutionCancelled env c

/-- A result of an old version only gives its slots back. -/
def handleCompletion : SchedulerActor :=
  match a.releaseExecutionResources env c with
  | (false, a) => a
  | (true, a) => a.handleOutcome env c

theorem handleCompletion_eq : a.handleCompletion env c =
      if (a.release env c.jobId c.runId).atVersion c.jobId c.version then
        (a.release env c.jobId c.runId).handleOutcome env c
      else a.release env c.jobId c.runId := by
  unfold handleCompletion releaseExecutionResources
  dsimp only
  cases (a.release env c.jobId c.runId).atVersion c.jobId c.version <;> rfl

end SchedulerActor

end Smalux.Scheduler
