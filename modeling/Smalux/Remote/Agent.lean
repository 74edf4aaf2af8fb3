/-
  Subject:   The Agent: policy, controller and scheduler together, and what can happen to them.

  The controller's operations exclude each other; the actor's own steps come between them and, as
  the script of an operation says, between its calls.

  * `Agent.step` -- one operation, or one step of the actor between operations.
-/
import Smalux.Remote.Serving

namespace Smalux.Remote

open Lib Scheduler SchedulerActor Proto

/-! ## 1. The Agent -/

structure Agent where
  policy : RemoteJobPolicy
  controller : ControllerState
  scheduler : SchedulerActor

/-- What can happen: an operation of the controller, or a step of the actor between two. -/
inductive Act where
  | internal (message : Internal)
  /-- with the task factory of that time -/
  | command (factory : TaskFactory) (command : JobCommand) (script : Script)
  | updatePolicy (change : RemoteJobPolicyChange) (persist : Except String Unit) (script : Script)
  | pausePlugin (plugin : String × String) (script : Script)
  | resumePlugin (plugin : String × String)
  | clearRemoteJobs (script : Script)
  /-- the map of remote Jobs is iterated in another order from now on -/
  | rehash (entries : List (JobId × ManagedJob))

/-- Run a program of the controller. -/
def perform {α : Type} (env : Env) (p : Calls α) (script : Script) (a : SchedulerActor) :
    α × SchedulerActor :=
  Client.exec (serve env) (internalTurn env) p script a

/-- The calls it makes, each with the state that serves it. -/
def performed {α : Type} (env : Env) (p : Calls α) (script : Script) (a : SchedulerActor) :
    List (SchedulerActor × Command) :=
  Client.calls (serve env) (internalTurn env) p script a

theorem perform_bind {α β : Type} (env : Env) (p : Calls α) (f : α → Calls β) (script : Script)
    (a : SchedulerActor) : perform env (p >>= f) script a =
      perform env (f (perform env p script a).1) (script.drop (performed env p script a).length)
        (perform env p script a).2 := Client.exec_bind _ _ p f script a

theorem performed_bind {α β : Type} (env : Env) (p : Calls α) (f : α → Calls β) (script : Script)
    (a : SchedulerActor) : performed env (p >>= f) script a = performed env p script a ++
        performed env (f (perform env p script a).1) (script.drop (performed env p script a).length)
          (perform env p script a).2 := Client.calls_bind _ _ p f script a

/-- The same records in another order. -/
def ControllerState.rehash (state : ControllerState) (entries : List (JobId × ManagedJob)) :
    ControllerState :=
  if h : state.remoteJobs.entries.Perm entries then
    { state with
      remoteJobs := ⟨entries, ((h.map Prod.fst).nodup_iff).mp state.remoteJobs.nodup⟩ }
  else state

theorem get_rehash (state : ControllerState) (entries : List (JobId × ManagedJob)) (id : JobId) :
    (state.rehash entries).remoteJobs.get id = state.remoteJobs.get id := by
  unfold ControllerState.rehash
  split
  · rename_i h
    refine Table.SameContent.get_eq ?_ id
    exact h
  · rfl

namespace Agent

/-- The Agent after the act. -/
def step (env : Env) (s : Agent) : Act → Agent
  | .internal message => { s with scheduler := internalTurn env s.scheduler message }
  | .command factory command script =>
    let r := perform env (applyCommand factory s.policy s.controller command) script s.scheduler
    { s with controller := r.1.2, scheduler := r.2 }
  | .updatePolicy change persist script =>
    let r := perform env (Remote.updatePolicy s.policy s.controller change persist) script
      s.scheduler
    ⟨r.1.2.1, r.1.2.2, r.2⟩
  | .pausePlugin plugin script =>
    let r := perform env (Remote.pausePlugin s.controller plugin) script s.scheduler
    { s with controller := r.1.2, scheduler := r.2 }
  | .resumePlugin plugin => { s with controller := Remote.resumePlugin s.controller plugin }
  | .clearRemoteJobs script =>
    let r := perform env (Remote.clearRemoteJobs s.controller) script s.scheduler
    { s with controller := r.1.2, scheduler := r.2 }
  | .rehash entries => { s with controller := s.controller.rehash entries }

/-- The requests of an act, each with the state that serves it. -/
def requests (env : Env) (s : Agent) : Act → List (SchedulerActor × Command)
  | .command factory command script =>
    performed env (applyCommand factory s.policy s.controller command) script s.scheduler
  | .updatePolicy change persist script =>
    performed env (Remote.updatePolicy s.policy s.controller change persist) script s.scheduler
  | .pausePlugin plugin script =>
    performed env (Remote.pausePlugin s.controller plugin) script s.scheduler
  | .clearRemoteJobs script =>
    performed env (Remote.clearRemoteJobs s.controller) script s.scheduler
  | .internal _ | .resumePlugin _ | .rehash _ => []

/-- An Agent whose controller owns nothing yet. -/
def fresh (policy : RemoteJobPolicy) (scheduler : SchedulerActor) : Agent :=
  ⟨policy, .new, scheduler⟩

end Agent

/-! ## 2. An Agent that polls -/

section Polling

/-- The CPU load once a minute, as the Job with the given id. -/
def pollingAs (id : JobId) (revision : Nat) : JobDefinition :=
  { pollingDefinition revision ⟨1, 0⟩ with jobId := Uuid.asBytes id }

/-- The Server sends a definition, undisturbed. -/
def upsertNow (catalogRevision : Nat) (definition : JobDefinition) : Act :=
  .command .lenient ⟨Uuid.asBytes catalogRevision, some (.upsert ⟨catalogRevision, some definition⟩)⟩ []

def freshAgent : Agent := .fresh {} (start .still { globalConcurrency := Nat.toPNat' 4 })

/-- Two Jobs of the same kind. -/
def twoPolling : Agent :=
  run (Agent.step .still) freshAgent
    [upsertNow 1 (pollingAs 1 1), upsertNow 2 (pollingAs 2 1)]

/-- An execution of a polling Job. -/
def pollingRun (id : JobId) (revision version : Nat) (runId : RunId) : SpawnedTask :=
  ⟨id, version, runId, 1, 0, ⟨"smalux.collect.cpu.v1", .reporting revision, ""⟩, none,
    .nonCancellable⟩

/-- A timer expires, and the execution it starts fails for good. -/
def failsForGood (key : Nat) (task : SpawnedTask) : List Internal :=
  [⟨.expired [key], rfl⟩,
   ⟨.completion task 0 (.finished (.taskPermanent "no such counter")), rfl⟩]

/-- The first execution of the first Job fails for good. -/
def firstJobFails : List Act := (failsForGood 0 (pollingRun 1 1 1 0)).map Act.internal

/-- The first Job is to be switched off. -/
def switchOff : JobCommand :=
  ⟨Uuid.asBytes 3, some (.upsert ⟨3, some { pollingAs 1 2 with enabled := false }⟩)⟩

/-- The Server takes a Job back. -/
def deleteCommand (catalogRevision : Nat) (id : JobId) (revision : Nat) : JobCommand :=
  ⟨Uuid.asBytes catalogRevision, some (.delete ⟨catalogRevision, Uuid.asBytes id, revision⟩)⟩

/-- The Server sends its whole catalog. -/
def replaceAllCommand (catalogRevision : Nat) (jobs : List JobDefinition) : JobCommand :=
  ⟨Uuid.asBytes catalogRevision, some (.replaceAll ⟨catalogRevision, jobs⟩)⟩

/-- Between the update and the disable request, the Job runs once more and fails for good. -/
def runsInBetween : Script := [[], failsForGood 2 (pollingRun 1 2 2 0)]

end Polling

end Smalux.Remote
