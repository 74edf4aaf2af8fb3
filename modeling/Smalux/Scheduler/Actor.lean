/-
  Subject:   The state of the scheduler actor and its smallest operations (engine.rs, timers.rs).

  The actor owns every Job, timer and queue, and handles one message at a time; its state is
  passed explicitly. What the code asks of the outside is `Env`: the cron library, the readings of
  the clock, fresh UUIDs. A reading of the clock is numbered by `ticks`, a fresh run id by `issued`.

  Not modelled: deadlines (which timer expires next is the environment's choice), logging, the
  channels that carry commands and events (the actor keeps the log of the events it broadcast,
  newest first), and graceful shutdown, after which the actor is gone.

  A panic of the actor's own thread is a state (`panicked`): nothing happens after it.
-/
import Smalux.Lib.DelayQueue
import Smalux.Scheduler.Queue
import Smalux.Scheduler.Timing

namespace Smalux.Scheduler

open Lib

/-! ## 1. The state -/

/-- What the actor asks of the outside. -/
structure Env where
  croner : Croner
  /-- the n-th reading of `Utc::now` -/
  clock : Nat → DateTime
  /-- the reading stamped on the n-th event -/
  emittedAt : Nat → DateTime
  /-- the n-th `RunId::new_v4` -/
  runIds : Nat → RunId
  /-- the n-th `JobId::new_v4` -/
  jobIds : Nat → JobId
  runIds_injective : Function.Injective runIds
  jobIds_injective : Function.Injective jobIds

/-- The environment of the runs spelled out below: the clock stands still, no cron expression
    parses, identifiers count up. -/
def Env.still : Env where
  croner := ⟨fun _ => .error "no cron expression", fun _ _ _ => .error "no cron expression"⟩
  clock := fun _ => 0
  emittedAt := fun _ => 0
  runIds := fun n => n
  jobIds := fun n => n
  runIds_injective := fun _ _ h => h
  jobIds_injective := fun _ _ h => h

/-- The same, but a tenth of a second passes between two readings of the clock, for ten seconds. -/
def Env.ticking : Env := { Env.still with clock := fun n => ((min n 100 * 10 ^ 8 : Nat) : Int) }

/-- The authoritative state of one Job. Its id is its key in the Job table. -/
structure JobEntry where
  version : Nat
  task : ScheduledTask
  cancellationMode : TaskCancellationMode
  trigger : Trigger
  concurrency : Option ℕ+
  maxPending : Option Nat
  priority : JobPriority
  coalescing : TriggerCoalescing
  capacity : CapacityPolicy
  retry : ExecutionRetryPolicy
  failure : FailurePolicy
  state : JobState
  normalTimerKey : Option Nat
  nextRunAt : Option DateTime
  blocked : List PendingExecution
  runningCount : Nat
  consecutiveFailures : Nat
  lastStartedAt : Option DateTime
  lastFinishedAt : Option DateTime
  lastOutcome : Option String
  lastFiredAt : Option DateTime
  createdAt : DateTime
  updatedAt : DateTime
  deriving DecidableEq, Repr

/-- A running execution; `cancelled` is the state of its cancellation token. -/
structure RunningExecution where
  jobId : JobId
  version : Nat
  cancelled : Bool
  deriving DecidableEq, Repr

structure RetryTimer where
  jobId : JobId
  key : Nat
  runAt : DateTime
  deriving DecidableEq, Repr

/-- What a wrapper future of the `JoinSet` carries: the execution, and what decides how it can end. -/
structure SpawnedTask where
  jobId : JobId
  version : Nat
  runId : RunId
  attempt : Nat
  scheduledAt : DateTime
  task : ScheduledTask
  timeout : Option Duration
  cancellationMode : TaskCancellationMode
  deriving DecidableEq, Repr

inductive CompletionOutcome where
  | finished (result : TaskRunResult)
  | timedOut
  | panicked (message : String)
  | cancelled
  deriving DecidableEq, Repr

structure TaskCompletion where
  jobId : JobId
  version : Nat
  runId : RunId
  attempt : Nat
  scheduledAt : DateTime
  elapsed : Duration
  outcome : CompletionOutcome
  deriving DecidableEq, Repr

structure SchedulerActor where
  config : SchedulerConfig
  configRevision : Nat
  jobs : Table JobId JobEntry
  timers : DelayQueue TimerEntry
  retryTimers : Table RunId RetryTimer
  ready : ReadyQueue
  tasks : List SpawnedTask
  running : Table RunId RunningExecution
  totalRunning : Nat
  eventSequence : Nat
  batchSequence : Nat
  /-- the events broadcast so far, newest first -/
  events : List SchedulerEvent
  ticks : Nat
  issued : Nat
  jobsIssued : Nat
  panicked : Bool

namespace SchedulerActor

def new (config : SchedulerConfig) : SchedulerActor where
  config := config
  configRevision := 0
  jobs := Table.empty
  timers := DelayQueue.new
  retryTimers := Table.empty
  ready := ReadyQueue.new
  tasks := []
  running := Table.empty
  totalRunning := 0
  eventSequence := 0
  batchSequence := 0
  events := []
  ticks := 0
  issued := 0
  jobsIssued := 0
  panicked := false

variable (env : Env)

section

variable (a : SchedulerActor)

/-! ## 2. Clock, events, cancellation -/

/-- `Utc::now()`: the next reading of the clock. -/
def now : DateTime := env.clock a.ticks

/-- The reading `now` has been taken. -/
def tick : SchedulerActor := { a with ticks := a.ticks + 1 }

def emit (kind : SchedulerEventKind) : SchedulerActor :=
  { a with
    eventSequence := wrappingSucc a.eventSequence
    events := ⟨wrappingSucc a.eventSequence, env.emittedAt a.events.length, kind⟩ :: a.events }

/-- Cancel the tokens of every running execution of one version of a Job. -/
def cancelJobVersion (jobId : JobId) (version : Nat) : SchedulerActor :=
  { a with
    running := a.running.mapVals fun r =>
      if r.jobId = jobId ∧ r.version = version then { r with cancelled := true } else r }

/-- Change one Job in place. -/
def modifyJob (jobId : JobId) (f : JobEntry → JobEntry) : SchedulerActor :=
  { a with jobs := a.jobs.modify jobId f }

/-! ## 3. Timers (timers.rs) -/

def scheduleEntry (key : Nat) (runAt : DateTime) (job : JobEntry) : JobEntry :=
  { job with normalTimerKey := some key, nextRunAt := some runAt }

/-- Replace the Job's one normal timer. -/
def scheduleNormal (jobId : JobId) (runAt : DateTime) (kind : TimerKind) : SchedulerActor :=
  match a.jobs.get jobId with
  | none => a
  | some job =>
    let timers := a.timers.removeKey job.normalTimerKey
    let a := { a with timers := timers.insertAt ⟨jobId, job.version, runAt, kind⟩ }
    let a := a.modifyJob jobId (scheduleEntry timers.nextKey runAt)
    a.emit env (.triggerScheduled jobId job.version runAt)

end

section ScheduleNormal

variable (a : SchedulerActor) (jobId : JobId) (runAt : DateTime) (kind : TimerKind)

/-- The Jobs after `schedule_normal`. -/
theorem get_jobs_scheduleNormal (id : JobId) : (a.scheduleNormal env jobId runAt kind).jobs.get id =
      if id = jobId then (a.jobs.get id).map (scheduleEntry a.timers.nextKey runAt)
      else a.jobs.get id := by
  unfold scheduleNormal
  split
  · rename_i h
    split
    · rename_i hid
      rw [hid, h]
      rfl
    · rfl
  · simp [emit, modifyJob]

/-- The queue after `schedule_normal`. -/
theorem timers_scheduleNormal {job : JobEntry} (hj : a.jobs.get jobId = some job) :
    (a.scheduleNormal env jobId runAt kind).timers =
      (a.timers.removeKey job.normalTimerKey).insertAt ⟨jobId, job.version, runAt, kind⟩ := by
  unfold scheduleNormal
  rw [hj]
  rfl

/-- The timer behind the key the Job stores after `schedule_normal`. -/
theorem scheduleNormal_stored {job' : JobEntry} {key : Nat}
    (hj : (a.scheduleNormal env jobId runAt kind).jobs.get jobId = some job')
    (hk : job'.normalTimerKey = some key) : (a.scheduleNormal env jobId runAt kind).timers.get key =
      some ⟨jobId, job'.version, runAt, kind⟩ := by
  rw [get_jobs_scheduleNormal, if_pos rfl] at hj
  obtain ⟨job, hjob, rfl⟩ := Option.map_eq_some_iff.mp hj
  cases hk
  rw [timers_scheduleNormal env a jobId runAt kind hjob]
  exact DelayQueue.get_replace.mpr (.inl ⟨rfl, rfl⟩)

@[simp] theorem config_scheduleNormal :
    (a.scheduleNormal env jobId runAt kind).config = a.config := by
  unfold scheduleNormal
  split <;> rfl

@[simp] theorem ticks_scheduleNormal : (a.scheduleNormal env jobId runAt kind).ticks = a.ticks := by
  unfold scheduleNormal
  split <;> rfl

@[simp] theorem ready_scheduleNormal : (a.scheduleNormal env jobId runAt kind).ready = a.ready := by
  unfold scheduleNormal
  split <;> rfl

@[simp] theorem retryTimers_scheduleNormal :
    (a.scheduleNormal env jobId runAt kind).retryTimers = a.retryTimers := by
  unfold scheduleNormal
  split <;> rfl

end ScheduleNormal

variable (a : SchedulerActor) (jobId : JobId) (version : Nat) (reason : String)

/-- Set the retry timer of one logical execution. -/
def scheduleRetry (runId : RunId) (scheduledAt : DateTime) (attempt : Nat) (runAt : DateTime) :
    SchedulerActor :=
  let timers := a.timers.removeKey ((a.retryTimers.get runId).map RetryTimer.key)
  let a :=
    { a with
      timers := timers.insertAt ⟨jobId, version, runAt, .retry runId scheduledAt attempt⟩
      retryTimers := a.retryTimers.insert runId ⟨jobId, timers.nextKey, runAt⟩ }
  a.emit env (.retryScheduled jobId version runId attempt runAt)

theorem retryTimers_scheduleRetry (runId : RunId) (scheduledAt : DateTime) (attempt : Nat)
    (runAt : DateTime) :
    (a.scheduleRetry env jobId version runId scheduledAt attempt runAt).retryTimers =
      a.retryTimers.insert runId ⟨jobId, a.timers.nextKey, runAt⟩ := by
  unfold scheduleRetry emit
  dsimp only
  rw [DelayQueue.nextKey_removeKey]

/-- The queue after a retry timer has been set for a run that had none. -/
theorem timers_scheduleRetry {runId : RunId} (scheduledAt : DateTime) (attempt : Nat)
    (runAt : DateTime) (hrow : a.retryTimers.get runId = none) :
    (a.scheduleRetry env jobId version runId scheduledAt attempt runAt).timers =
      (a.timers.removeKey none).insertAt ⟨jobId, version, runAt, .retry runId scheduledAt attempt⟩ := by
  unfold scheduleRetry
  rw [hrow]
  rfl

/-- Remove every retry timer of a Job. -/
def clearRetryTimers : SchedulerActor :=
  let cleared := a.retryTimers.values.filter (fun timer => timer.jobId = jobId)
  { a with
    timers := cleared.foldl (fun timers timer => timers.tryRemove timer.key) a.timers
    retryTimers := a.retryTimers.retain (fun _ timer => timer.jobId ≠ jobId) }

/-- A key that `reanchor_timers` can reset. -/
def resettable (job : JobEntry) : Bool :=
  match job.normalTimerKey, job.nextRunAt with
  | some key, some _ => a.timers.contains key
  | _, _ => true

/-- Reset the deadline of every stored key; `reset_at` of a dead key panics. -/
def reanchorTimers : SchedulerActor :=
  if a.jobs.values.all a.resettable &&
      a.retryTimers.values.all (fun timer => a.timers.contains timer.key) then a
  else { a with panicked := true }

/-! ## 4. Disabling a Job (engine.rs) -/

/-- What `force_disable` leaves of a Job. -/
def disableEntry (now : DateTime) (job : JobEntry) : JobEntry :=
  { job with
    version := version
    normalTimerKey := none
    nextRunAt := none
    blocked := []
    state := .disabled reason
    updatedAt := now }

/-- Next version, no timer, nothing pending, running executions of the old version cancelled. -/
def commitDisable (job : JobEntry) (version : Nat) (reason : String) : SchedulerActor :=
  let now := a.now env
  let a := { a.tick with timers := a.timers.removeKey job.normalTimerKey }
  let a := a.modifyJob jobId (disableEntry version reason now)
  let a := a.clearRetryTimers jobId
  let a := { a with ready := (a.ready.removeJob jobId).2 }
  let a := a.cancelJobVersion jobId job.version
  a.emit env (.jobDisabled jobId version reason)

theorem get_commitDisable (job : JobEntry) (version : Nat) (reason : String) (id : JobId) :
    (a.commitDisable env jobId job version reason).jobs.get id =
      if id = jobId then (a.jobs.get id).map (disableEntry version reason (a.now env))
      else a.jobs.get id :=
  Table.get_modify a.jobs jobId id _

/-- Disable a Job for good. -/
def forceDisable : Except SchedulerError Unit × SchedulerActor :=
  match a.jobs.get jobId with
  | none => (.error (.jobNotFound jobId), a)
  | some job =>
    match checkedSucc job.version with
    | none => (.error (.versionOverflow jobId), a)
    | some version => (.ok (), a.commitDisable env jobId job version reason)

theorem forceDisable_cases : ((a.forceDisable env jobId reason).2 = a ∧
        ∀ job, a.jobs.get jobId = some job → u64Max ≤ job.version) ∨
      ∃ job, a.jobs.get jobId = some job ∧ job.version < u64Max ∧
        (a.forceDisable env jobId reason).2 =
          a.commitDisable env jobId job (job.version + 1) reason := by
  unfold forceDisable
  split
  · rename_i hnone
    exact .inl ⟨rfl, fun job hj => by rw [hnone] at hj; cases hj⟩
  · rename_i job hj
    have hlt := checkedSucc_isSome job.version
    split
    · rename_i hv
      rw [hv] at hlt
      refine .inl ⟨rfl, fun job' hj' => ?_⟩
      rw [← Option.some.inj (hj.symm.trans hj')]
      exact Nat.le_of_not_lt (of_decide_eq_false hlt.symm)
    · rename_i version hv
      rw [hv] at hlt
      rw [checkedSucc_eq_some hv]
      exact .inr ⟨job, hj, of_decide_eq_true hlt.symm, rfl⟩

end SchedulerActor

end Smalux.Scheduler
