/-
  Subject:   The actor's main loop (engine.rs): one turn per message, and whole runs.

  Between two turns the actor waits in `select!`. A turn handles the message that arrived and then
  does what the loop does before it waits again: held-back executions return (`restoreBlocked`) and
  executions start (`dispatchReady`). What arrives, and when, is the environment's choice: a
  command, the end of a running task, expired timers, the maintenance tick. A message that cannot
  arrive (a result the task cannot have, a timer that is not there) changes nothing.

  `rehash` is no message: the job map, like every hash map, may be iterated in another order next
  time.
-/
import Smalux.Lib.Run
import Smalux.Scheduler.Execution
import Smalux.Scheduler.Scheduling

namespace Smalux.Scheduler

open Lib

/-- The commands of the scheduler handle; `Shutdown` ends the run. -/
inductive Command where
  | add (jobId : Option JobId) (generation : Nat) (enabled : Bool) (trigger : Trigger)
      (task : TaskBinding) (options : JobOptions)
  | update (jobId : JobId) (expectedVersion : Nat) (patch : JobPatch)
  | get (jobId : JobId)
  | list
  | enable (jobId : JobId) (expectedVersion : Nat)
  | disable (jobId : JobId) (expectedVersion : Nat) (reason : String)
  | delete (jobId : JobId) (expectedVersion : Nat)
  | reconcile (plan : SchedulerReconcilePlan)
  | getConfig
  | updateConfig (expectedRevision : Nat) (patch : SchedulerConfigPatch)
  deriving DecidableEq, Repr

/-- What the actor sends back on the command's channel. -/
inductive Response where
  | added (result : Except SchedulerError JobId)
  | job (result : Except SchedulerError JobSnapshot)
  | found (result : Option JobSnapshot)
  | jobs (result : List JobSnapshot)
  | deleted (result : Except SchedulerError Unit)
  | reconciled (result : Except SchedulerError (List JobSnapshot))
  | config (result : Except SchedulerError SchedulerConfigSnapshot)

/-- What wakes the actor up. -/
inductive Message where
  | command (command : Command)
  /-- the wrapper of `task` ends with `outcome` -/
  | completion (task : SpawnedTask) (elapsed : Duration) (outcome : CompletionOutcome)
  /-- the wrapper of `task` is lost: `join_next` answers an error -/
  | joinError (task : SpawnedTask)
  /-- timers expire -/
  | expired (keys : List Nat)
  | maintenance
  | rehash (entries : List (JobId × JobEntry))
  deriving DecidableEq, Repr

namespace SchedulerActor

variable (env : Env)

variable (a : SchedulerActor)

def handleCommand : Command → Response × SchedulerActor
  | .add jobId generation enabled trigger task options =>
    let r := a.addJob env jobId generation enabled trigger task options
    (.added r.1, r.2)
  | .update jobId expectedVersion patch =>
    let r := a.updateJob env jobId expectedVersion patch
    (.job r.1, r.2)
  | .get jobId => (.found ((a.jobs.get jobId).map (a.snapshot jobId)), a)
  | .list => (.jobs (a.jobs.entries.map fun e => a.snapshot e.1 e.2), a)
  | .enable jobId expectedVersion =>
    let r := a.enableJob env jobId expectedVersion
    (.job r.1, r.2)
  | .disable jobId expectedVersion reason =>
    let r := a.disableJob env jobId expectedVersion reason
    (.job r.1, r.2)
  | .delete jobId expectedVersion =>
    let r := a.deleteJob env jobId expectedVersion true
    (.deleted r.1, r.2)
  | .reconcile plan =>
    let r := a.reconcileJobs env plan
    (.reconciled r.1, r.2)
  | .getConfig => (.config (.ok ⟨a.configRevision, a.config⟩), a)
  | .updateConfig expectedRevision patch =>
    let r := a.updateConfig env expectedRevision patch
    (.config r.1, r.2)

/-- Whether the token of a run has been cancelled. -/
def tokenCancelled (runId : RunId) : Bool :=
  ((a.running.get runId).map RunningExecution.cancelled).getD false

/-- The handler of the message. -/
def handle : Message → SchedulerActor
  | .command command => (a.handleCommand env command).2
  | .completion task elapsed outcome =>
    if task ∈ a.tasks ∧ task.possible (a.tokenCancelled task.runId) outcome then
      ({ a with tasks := a.tasks.erase task }).handleCompletion env
        (task.completion elapsed outcome)
    else a
  -- only logged: the slots stay taken
  | .joinError task => { a with tasks := a.tasks.erase task }
  | .expired keys => a.handleExpiredBatch env keys
  | .maintenance => a.reanchorTimers
  | .rehash entries =>
    if h : a.jobs.entries.Perm entries then
      { a with jobs := ⟨entries, ((h.map Prod.fst).nodup_iff).mp a.jobs.nodup⟩ }
    else a

/-- The state in which the result of a task is handled: its slots have been given back. -/
def released (task : SpawnedTask) : SchedulerActor :=
  ({ a with tasks := a.tasks.erase task }).release env task.jobId task.runId

theorem handle_completion {task : SpawnedTask} {elapsed : Duration} {outcome : CompletionOutcome}
    (ht : task ∈ a.tasks) (hp : task.possible (a.tokenCancelled task.runId) outcome = true) :
    a.handle env (.completion task elapsed outcome) =
      if a.atVersion task.jobId task.version then
        (a.released env task).handleOutcome env (task.completion elapsed outcome)
      else a.released env task := by
  have hat : (a.released env task).atVersion task.jobId task.version =
      a.atVersion task.jobId task.version := by
    unfold released atVersion
    rw [get_release, Option.map_map]
    rfl
  rw [handle, if_pos ⟨ht, hp⟩, ← hat]
  exact handleCompletion_eq env _ _

/-- What the loop does before it waits again. -/
def settle : SchedulerActor := (a.restoreBlocked env).dispatchReady env

/-- One turn. A panic ends the actor's thread. -/
def turn (message : Message) : SchedulerActor :=
  if a.panicked then a
  else
    let a := a.handle env message
    if a.panicked then a else a.settle env

/-- The actor when it waits for the first time. -/
def start (config : SchedulerConfig) : SchedulerActor := (new config).emit env .schedulerStarted

/-- The actor after the given messages. -/
abbrev after (config : SchedulerConfig) (messages : List Message) : SchedulerActor :=
  Lib.run (turn env) (start env config) messages

end SchedulerActor

end Smalux.Scheduler
