/-
  Subject:   Expired timers, admission to the queue and backpressure (scheduling.rs).
-/
import Smalux.Scheduler.Actor

namespace Smalux.Scheduler

open Lib

inductive Admission where
  | accepted
  | skipped
  | blocked
  deriving DecidableEq, Repr

namespace SchedulerActor

variable (env : Env)

variable (a : SchedulerActor) (pending : PendingExecution) (job : JobEntry)

/-! ## 1. Admission -/

/-- How many executions of the Job may wait. -/
def jobLimit : Nat :=
  job.maxPending.getD a.config.defaultJobMaxPending

def pushBlocked : JobEntry :=
  { job with blocked := job.blocked ++ [pending] }

/-- Hold an execution back in `Job.blocked`. -/
def block : SchedulerActor :=
  let a := a.modifyJob pending.jobId (pushBlocked pending)
  a.emit env (.backpressureApplied pending.jobId pending.version)

/-- One `PendingReplaced` per execution that made room. -/
def emitReplaced (a : SchedulerActor) (jobId : JobId) (replacement : RunId) :
    List RunId → SchedulerActor
  | [] => a
  | removed :: rest =>
    emitReplaced (a.emit env (.pendingReplaced jobId removed replacement)) jobId replacement rest

def dropReplaceable : JobEntry :=
  { job with blocked := job.blocked.filter fun item => !item.kind.isReplaceableTrigger }

/-- Keep-latest: the Job's waiting normal executions, queued or held back, make room. -/
def coalesce : SchedulerActor :=
  let removed := a.ready.removeNormalTriggers pending.jobId
  let removedBlocked := job.blocked.filter fun item => item.kind.isReplaceableTrigger
  let a := { a with ready := removed.2 }
  let a := a.modifyJob pending.jobId dropReplaceable
  a.emitReplaced env pending.jobId pending.runId ((removed.1 ++ removedBlocked).map (·.runId))

/-- Queue an execution. -/
def enqueue : SchedulerActor :=
  let a := { a with ready := a.ready.insert pending }
  a.emit env (.executionQueued pending.jobId pending.version pending.runId
    (a.ready.countJob pending.jobId))

/-- Whether the queue, or the Job's share of it, is full. -/
def full : Bool :=
  decide (a.config.globalMaxPending ≤ a.ready.len) ||
    decide (a.jobLimit job ≤ a.ready.countJob pending.jobId)

/-- The capacity policy meets one execution. -/
def admitWithin (capacity : CapacityPolicy) : Admission × SchedulerActor :=
  if a.full pending job then
    match capacity with
    | .skipNewest =>
      (.skipped, a.emit env (.triggerSkipped pending.jobId pending.version pending.scheduledAt
        "pending capacity reached"))
    | .replaceOldestTrigger =>
      match a.ready.removeOldestTrigger pending.jobId with
      | (some old, ready) =>
        let a := { a with ready := ready }
        let a := a.emit env (.pendingReplaced pending.jobId old.runId pending.runId)
        (.accepted, a.enqueue env pending)
      | (none, _) => (.blocked, a.block env pending)
    | .backpressure => (.blocked, a.block env pending)
  else (.accepted, a.enqueue env pending)

/-- Admit one execution. Once, RunNow and Retry executions are never dropped. -/
def admitPending (forceBackpressure : Bool) : Admission × SchedulerActor :=
  match a.jobs.get pending.jobId with
  | none => (.skipped, a)
  | some job =>
    let capacity :=
      if forceBackpressure || !pending.kind.isReplaceableTrigger then .backpressure
      else job.capacity
    let a :=
      if job.coalescing = .keepLatest ∧ pending.kind.isReplaceableTrigger then
        a.coalesce env pending job
      else a
    a.admitWithin env pending job capacity

/-! ## 2. Expired timers -/

/-- The executions of one expiry, each with a fresh run id; whether one of them was held back. -/
def admitOccurrences (a : SchedulerActor) (jobId : JobId) (job : JobEntry) (batchId : Nat)
    (kind : PendingKind) : Bool → List DateTime → Bool × SchedulerActor
  | blocked, [] => (blocked, a)
  | blocked, occurrence :: rest =>
    let pending : PendingExecution :=
      { jobId := jobId, version := job.version, runId := env.runIds a.issued, attempt := 1,
        scheduledAt := occurrence, kind := kind, priority := job.priority, batchId := batchId }
    let admitted :=
      ({ a with issued := a.issued + 1 }).admitPending env pending (kind == PendingKind.once)
    admitOccurrences admitted.2 jobId job batchId kind
      (blocked || admitted.1 == Admission.blocked) rest

/-- The kind of execution a normal timer produces. -/
def triggerKind (schedule : Schedule) (runNow : Bool) : PendingKind :=
  if schedule.isOnce then .once else if runNow then .runNow else .normal

/-- The occurrences of an expiry: `now` alone for RunNow, by the misfire policy otherwise. -/
def dueSchedule (scheduledAt now : DateTime) (runNow : Bool) : Except SchedulerError DueSchedule :=
  if runNow then
    .ok ⟨[now], ((nextAfter env.croner job.trigger.schedule now).toOption).join⟩
  else dueOccurrences env.croner job.trigger scheduledAt now a.config.maximumCatchUp

/-- Admit the occurrences; set the next timer unless one of them was held back. -/
def admitDue (jobId : JobId) (job : JobEntry) (scheduledAt : DateTime) (batchId : Nat)
    (runNow : Bool) (due : DueSchedule) : SchedulerActor :=
  let a :=
    if due.occurrences = [] then
      a.emit env (.triggerSkipped jobId job.version scheduledAt
        "misfire policy skipped expired occurrences")
    else a
  let admitted :=
    a.admitOccurrences env jobId job batchId (triggerKind job.trigger.schedule runNow) false
      due.occurrences
  match admitted.1, due.next with
  | false, some next => admitted.2.scheduleNormal env jobId next .normal
  | _, _ => admitted.2

def handleNormalTrigger (jobId : JobId) (scheduledAt : DateTime) (batchId : Nat) (runNow : Bool) :
    SchedulerActor :=
  let now := a.now env
  let a := a.tick
  match a.jobs.get jobId with
  | none => a
  | some job =>
    match a.dueSchedule env job scheduledAt now runNow with
    | .error error => (a.forceDisable env jobId error.text).2
    | .ok due => a.admitDue env jobId job scheduledAt batchId runNow due

def clearNormalTimer : JobEntry :=
  { job with normalTimerKey := none, nextRunAt := none }

/-- One expired timer. A timer of an old version or of a Job that is not enabled is ignored. -/
def handleTimer (entry : TimerEntry) (batchId : Nat) : SchedulerActor :=
  match a.jobs.get entry.jobId with
  | none => a
  | some job =>
    if job.version ≠ entry.version ∨ job.state ≠ .enabled then a
    else
      match entry.kind with
      | .retry runId scheduledAt attempt =>
        let a := { a with retryTimers := a.retryTimers.remove runId }
        let pending : PendingExecution :=
          { jobId := entry.jobId, version := entry.version, runId := runId, attempt := attempt,
            scheduledAt := scheduledAt, kind := .retry, priority := job.priority,
            batchId := batchId }
        (a.admitPending env pending true).2
      | kind =>
        let a := a.modifyJob entry.jobId clearNormalTimer
        a.handleNormalTrigger env entry.jobId entry.runAt batchId (kind == TimerKind.runNow)

/-- The entries of the keys that expired, in order; they leave the queue. -/
def popExpired (timers : DelayQueue TimerEntry) :
    List Nat → List (Nat × TimerEntry) × DelayQueue TimerEntry
  | [] => ([], timers)
  | key :: keys =>
    match timers.get key with
    | none => popExpired timers keys
    | some entry =>
      let popped := popExpired (timers.tryRemove key) keys
      ((key, entry) :: popped.1, popped.2)

theorem mem_popExpired {entry : Nat × TimerEntry} : ∀ {keys : List Nat}
    {timers : DelayQueue TimerEntry}, entry ∈ (popExpired timers keys).1 →
    timers.get entry.1 = some entry.2
  | [], _, h => absurd h List.not_mem_nil
  | key :: keys, timers, h => by
    unfold popExpired at h
    split at h
    · exact mem_popExpired h
    · rename_i e he
      rcases List.mem_cons.mp h with rfl | h
      · exact he
      · have hrest := mem_popExpired h
        rw [DelayQueue.get_tryRemove] at hrest
        split at hrest
        · cases hrest
        · exact hrest

/-- Handle the timers of one batch in order. -/
def handleTimers (a : SchedulerActor) (batchId : Nat) : List (Nat × TimerEntry) → SchedulerActor
  | [] => a
  | expired :: rest => handleTimers (a.handleTimer env expired.2 batchId) batchId rest

/-- The keys that expired together become one batch, `dueBatchSize` of them at most. -/
def handleExpiredBatch (keys : List Nat) : SchedulerActor :=
  let popped := popExpired a.timers (keys.take a.config.dueBatchSize)
  if popped.1 = [] then a
  else
    let batchId := wrappingSucc a.batchSequence
    handleTimers env { a with batchSequence := batchId, timers := popped.2 } batchId popped.1

/-! ## 3. Backpressure is released -/

def popBlocked : JobEntry := { job with blocked := job.blocked.tail }

/-- The Job's held-back executions return in order while there is room. Also the planned time of
    the last normal or RunNow execution among them. -/
def restoreLoop (jobId : JobId) (limit : Nat) :
    Nat → Option DateTime → SchedulerActor → Option DateTime × SchedulerActor
  | 0, resumeFrom, a => (resumeFrom, a)
  | fuel + 1, resumeFrom, a =>
    if a.ready.len < a.config.globalMaxPending ∧ a.ready.countJob jobId < limit then
      match a.jobs.get jobId with
      | none => (resumeFrom, a)
      | some job =>
        match job.blocked with
        | [] => (resumeFrom, a)
        | pending :: _ =>
          let a := a.modifyJob jobId popBlocked
          if job.version = pending.version then
            let resumeFrom :=
              if pending.kind = .normal ∨ pending.kind = .runNow then some pending.scheduledAt
              else resumeFrom
            let a := { a with ready := a.ready.insert pending }
            let a := a.emit env (.executionQueued jobId pending.version pending.runId
              (a.ready.countJob jobId))
            restoreLoop jobId limit fuel resumeFrom a
          else restoreLoop jobId limit fuel resumeFrom a
    else (resumeFrom, a)

/-- Set the timer of a periodic Job whose list ran empty again, from the execution restored last. -/
def resumeJob (jobId : JobId) (resumeFrom : Option DateTime) : SchedulerActor :=
  match a.jobs.get jobId with
  | none => a
  | some job =>
    if job.blocked = [] ∧ job.nextRunAt = none ∧ job.state = .enabled ∧
        job.trigger.schedule.isOnce = false then
      match resumeFrom with
      | none => a
      | some resumeFrom =>
        match nextAfter env.croner job.trigger.schedule resumeFrom with
        | .ok (some next) => a.scheduleNormal env jobId next .normal
        | _ => a
    else a

def restoreJob (jobId : JobId) : SchedulerActor :=
  match a.jobs.get jobId with
  | none => a
  | some job =>
    let restored := restoreLoop env jobId (a.jobLimit job) job.blocked.length none a
    restored.2.resumeJob env jobId restored.1

def restoreJobs (a : SchedulerActor) : List JobId → SchedulerActor
  | [] => a
  | jobId :: rest => restoreJobs (a.restoreJob env jobId) rest

/-- Called before every wait of the actor. -/
def restoreBlocked : SchedulerActor :=
  if a.config.globalMaxPending ≤ a.ready.len then a else a.restoreJobs env a.jobs.keys

end SchedulerActor

end Smalux.Scheduler
