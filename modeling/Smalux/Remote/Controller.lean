/-
  Subject:   The controller of remote Jobs (remote_jobs.rs).

  The controller translates the Server's commands into calls of the scheduler and remembers, for
  each remote Job, the definition it applied and the scheduler's generation of it. An operation
  holds the state lock from beginning to end, but each of its scheduler calls is a message of its
  own: the actor may do other things in between. So an operation is a program (`Client`) whose
  requests are the actor's commands.

  The controller's state after a failed command is the state before it, except for what the loops
  of `update_policy`, `pause_plugin` and `clear_remote_jobs` have already written back.
-/
import Smalux.Lib.Client
import Smalux.Remote.FullPatch
import Smalux.Remote.Policy

namespace Smalux.Remote

open Lib Scheduler Proto

/-! ## 1. State and errors -/

structure ManagedJob where
  /-- the definition applied last -/
  definition : JobDefinition
  /-- the Server's revision of it -/
  revision : Nat
  /-- the scheduler's version of the Job, for the next update or deletion -/
  generation : Nat
  taskKind : String
  plugin : Option (String × String)
  deriving DecidableEq, Repr

structure ControllerState where
  catalogRevision : Nat
  remoteJobs : Table JobId ManagedJob
  cachedResults : Table Uuid JobCommandResult
  cacheOrder : List Uuid
  pausedPlugins : List (String × String)

def ControllerState.new : ControllerState where
  catalogRevision := 0
  remoteJobs := Table.empty
  cachedResults := Table.empty
  cacheOrder := []
  pausedPlugins := []

/-- Why a command is not applied. -/
structure ControlError where
  status : JobCommandStatus
  code : JobCommandErrorCode
  message : String
  not_applied : status ≠ .applied
  deriving DecidableEq, Repr

def ControlError.rejected (code : JobCommandErrorCode) (message : String) : ControlError :=
  ⟨.rejected, code, message, by decide⟩

def ControlError.resync (message : String) : ControlError :=
  ⟨.resyncRequired, .revisionConflict, message, by decide⟩

/-- The protocol's code for a scheduler error. -/
def schedulerError (error : SchedulerError) : ControlError :=
  .rejected
    (match error with
      | .jobNotFound _ => .notFound
      | .jobAlreadyExists _ => .ownershipConflict
      | .versionConflict _ _ _ => .revisionConflict
      | .maximumJobsReached _ => .capacityExceeded
      | _ => .schedulerUnavailable)
    error.text

/-! ## 2. Calls of the scheduler -/

/-- The answer to a command; none if the actor is gone. -/
def Answer := Option Response

/-- A program of the controller. -/
abbrev Calls := Client Command Answer

/-! An answer of another kind than the command's does not come; it would be read as none. -/

namespace Answer

def added : Answer → Except SchedulerError JobId
  | some (.added result) => result
  | _ => .error .closed

def job : Answer → Except SchedulerError JobSnapshot
  | some (.job result) => result
  | _ => .error .closed

def found : Answer → Except SchedulerError (Option JobSnapshot)
  | some (.found result) => .ok result
  | _ => .error .closed

def jobs : Answer → Except SchedulerError (List JobSnapshot)
  | some (.jobs result) => .ok result
  | _ => .error .closed

def deleted : Answer → Except SchedulerError Unit
  | some (.deleted result) => result
  | _ => .error .closed

def reconciled : Answer → Except SchedulerError (List JobSnapshot)
  | some (.reconciled result) => result
  | _ => .error .closed

def config : Answer → Except SchedulerError SchedulerConfigSnapshot
  | some (.config result) => result
  | _ => .error .closed

end Answer

namespace Calls

def install (job : CompiledJob) : Calls (Except SchedulerError JobId) :=
  .ask (.add (some job.id) 1 job.enabled job.trigger job.task job.options) fun answer =>
    .done answer.added

def update (jobId : JobId) (expectedVersion : Nat) (patch : JobPatch) :
    Calls (Except SchedulerError JobSnapshot) :=
  .ask (.update jobId expectedVersion patch) fun answer => .done answer.job

def get (jobId : JobId) : Calls (Except SchedulerError (Option JobSnapshot)) :=
  .ask (.get jobId) fun answer => .done answer.found

def list : Calls (Except SchedulerError (List JobSnapshot)) :=
  .ask .list fun answer => .done answer.jobs

def enable (jobId : JobId) (expectedVersion : Nat) : Calls (Except SchedulerError JobSnapshot) :=
  .ask (.enable jobId expectedVersion) fun answer => .done answer.job

def disable (jobId : JobId) (expectedVersion : Nat) (reason : String) :
    Calls (Except SchedulerError JobSnapshot) :=
  .ask (.disable jobId expectedVersion reason) fun answer => .done answer.job

def delete (jobId : JobId) (expectedVersion : Nat) : Calls (Except SchedulerError Unit) :=
  .ask (.delete jobId expectedVersion) fun answer => .done answer.deleted

def reconcile (plan : SchedulerReconcilePlan) :
    Calls (Except SchedulerError (List JobSnapshot)) :=
  .ask (.reconcile plan) fun answer => .done answer.reconciled

def getConfig : Calls (Except SchedulerError SchedulerConfigSnapshot) :=
  .ask .getConfig fun answer => .done answer.config

end Calls

/-- Go on with the value, or end with the error: `?`. -/
def andThen {ε α β : Type} (p : Calls (Except ε α)) (f : α → Calls (Except ε β)) :
    Calls (Except ε β) := do
  match ← p with
  | .ok value => f value
  | .error e => return .error e

/-- `?` after a scheduler call. -/
def onScheduler {α β : Type} (p : Calls (Except SchedulerError α))
    (f : α → Calls (Except ControlError β)) : Calls (Except ControlError β) := do
  match ← p with
  | .ok value => f value
  | .error e => return .error (schedulerError e)

/-- `?` on a check that calls nobody. -/
def checked {α β : Type} (x : Except ControlError α) (f : α → Calls (Except ControlError β)) :
    Calls (Except ControlError β) :=
  match x with
  | .ok value => f value
  | .error e => pure (.error e)

/-! ## 3. Answers to the Server -/

/-- `try_into().unwrap_or(u32::MAX)`. -/
def saturateU32 (n : Nat) : Nat := min n (2 ^ 32 - 1)

def timestampProto (value : DateTime) : Timestamp := ⟨value / 10 ^ 9, value % 10 ^ 9⟩

def jobStatus (snapshot : JobSnapshot) (revision : Nat) : JobStatus where
  jobId := Uuid.asBytes snapshot.id
  revision := revision
  taskKind := snapshot.taskKind
  state :=
    match snapshot.state with
    | .enabled => .enabled
    | .completed => .completed
    | .disabled _ => .disabled
  disabledReason :=
    match snapshot.state with
    | .disabled reason => reason
    | _ => ""
  concurrency := saturateU32 snapshot.concurrency
  maxPending := saturateU32 snapshot.maxPending
  runningCount := saturateU32 snapshot.runningCount
  pendingCount := saturateU32 snapshot.pendingCount
  consecutiveFailures := snapshot.consecutiveFailures
  nextRunAt := snapshot.nextRunAt.map timestampProto
  lastStartedAt := snapshot.lastStartedAt.map timestampProto
  lastFinishedAt := snapshot.lastFinishedAt.map timestampProto
  lastOutcome := snapshot.lastOutcome.getD ""
  createdAt := timestampProto snapshot.createdAt
  updatedAt := timestampProto snapshot.updatedAt

def commandError (commandId : List UInt8) (catalogRevision : Nat) (error : ControlError) :
    JobCommandResult where
  commandId := commandId
  status := error.status
  catalogRevision := catalogRevision
  job := none
  error := some ⟨error.code, error.message⟩

/-- Errors that may go away by themselves are not remembered. -/
def shouldCacheResult (result : JobCommandResult) : Bool :=
  match result.error with
  | none => true
  | some error => decide (error.code ≠ .schedulerUnavailable ∧ error.code ≠ .capacityExceeded)

def cacheCapacity : Nat := 1024

/-- Forget the oldest results while there are too many. -/
def evict : List Uuid → Table Uuid JobCommandResult →
    List Uuid × Table Uuid JobCommandResult
  | [], results => ([], results)
  | oldest :: rest, results =>
    if cacheCapacity < rest.length + 1 then evict rest (results.remove oldest)
    else (oldest :: rest, results)

def cacheResult (state : ControllerState) (id : Uuid) (result : JobCommandResult) :
    ControllerState :=
  let evicted := evict (state.cacheOrder ++ [id]) (state.cachedResults.insert id result)
  { state with cacheOrder := evicted.1, cachedResults := evicted.2 }

/-! ## 4. Single Jobs -/

section Operations

variable (factory : TaskFactory) (policy : RemoteJobPolicy) (state : ControllerState)

/-- Increments must come one after the other. The sum wraps in the release build. -/
def requireNextCatalog (revision : Nat) : Except ControlError Unit :=
  if revision ≠ wrappingSucc state.catalogRevision then
    .error (.resync "catalog revision must be exactly current + 1")
  else .ok ()

def requireReplaceAllCatalog (revision : Nat) : Except ControlError Unit :=
  if revision = 0 ∨ revision < state.catalogRevision then
    .error (.rejected .revisionConflict
      "replace-all catalog revision must be positive and not older than current")
  else .ok ()

def invalidJob (message : String) : ControlError := .rejected .invalidJob message

def invalidCommand (message : String) : ControlError := .rejected .invalidCommand message

def localPolicyError (denial : PolicyDenial) : ControlError :=
  .rejected .localPolicyDenied denial.text

/-- Bring the Job to the state its definition asks for; a Job that is there already stays as it
    is. -/
def setEnabled (snapshot : JobSnapshot) (enabled : Bool) : Calls (Except SchedulerError JobSnapshot) :=
  match enabled, snapshot.state with
  | true, .enabled => pure (.ok snapshot)
  | false, .disabled _ => pure (.ok snapshot)
  | true, _ => Calls.enable snapshot.id snapshot.version
  | false, _ => Calls.disable snapshot.id snapshot.version "disabled by job definition"

/-- The controller's record of a compiled definition. -/
def CompiledJob.managed (job : CompiledJob) (generation : Nat) : ManagedJob :=
  ⟨job.definition, job.revision, generation, job.taskKind, job.plugin⟩

/-- An update: the patch, then the state, in two calls. -/
def upsertExisting (job : CompiledJob) (current : ManagedJob) :
    Calls (Except ControlError JobSnapshot) :=
  checked
    (if job.revision ≤ current.revision then
      .error (.rejected .revisionConflict "job revision must increase")
    else .ok ()) fun _ =>
  onScheduler
    (Calls.update job.id current.generation (fullPatch job.trigger job.task job.options))
    fun snapshot =>
  onScheduler (setEnabled snapshot job.enabled) fun snapshot => pure (.ok snapshot)

/-- A new Job: install it, then read it back. -/
def upsertNew (job : CompiledJob) : Calls (Except ControlError JobSnapshot) :=
  onScheduler (Calls.install job) fun _ =>
  onScheduler (Calls.get job.id) fun found =>
    match found with
    | some snapshot => pure (.ok snapshot)
    | none => pure (.error (.rejected .schedulerUnavailable "installed job is missing"))

def upsertCompiled (job : CompiledJob) :
    Calls (Except ControlError (ControllerState × JobStatus)) :=
  andThen
    (match state.remoteJobs.get job.id with
      | some current => upsertExisting job current
      | none => upsertNew job) fun snapshot =>
  pure (.ok
    ({ state with remoteJobs := state.remoteJobs.insert job.id (job.managed snapshot.version) },
      jobStatus snapshot job.revision))

def compileChecked (definition : JobDefinition) : Except ControlError CompiledJob := do
  Except.mapError localPolicyError (policy.checkDefinition definition)
  Except.mapError invalidJob (compileJob factory definition)

def upsert (command : UpsertJob) :
    Calls (Except ControlError (ControllerState × Option JobStatus)) :=
  checked (requireNextCatalog state command.catalogRevision) fun _ =>
  checked (Except.mapError invalidJob (required command.job "upsert job")) fun definition =>
  checked (compileChecked factory policy definition) fun job =>
  andThen (upsertCompiled state job) fun (state, status) =>
  pure (.ok ({ state with catalogRevision := command.catalogRevision }, some status))

/-- The remote Job a command names, at the revision it expects. -/
def expectManaged (jobId : List UInt8) (expectedRevision : Nat) :
    Except ControlError (JobId × ManagedJob) := do
  let id ← Except.mapError invalidCommand (parseUuid jobId "job_id")
  match state.remoteJobs.get id with
  | none => throw (.rejected .notFound "remote job was not found")
  | some current =>
    if expectedRevision ≠ current.revision then
      throw (.rejected .revisionConflict "expected revision does not match")
    return (id, current)

def delete (command : DeleteJob) :
    Calls (Except ControlError (ControllerState × Option JobStatus)) :=
  checked (requireNextCatalog state command.catalogRevision) fun _ =>
  checked (expectManaged state command.jobId command.expectedRevision) fun (id, current) =>
  onScheduler (Calls.delete id current.generation) fun _ =>
  pure (.ok
    ({ state with
        remoteJobs := state.remoteJobs.remove id, catalogRevision := command.catalogRevision },
      none))

def runNow (command : RunJobNow) :
    Calls (Except ControlError (ControllerState × Option JobStatus)) :=
  checked (expectManaged state command.jobId command.expectedRevision) fun (id, current) =>
  checked (Except.mapError localPolicyError (policy.checkInstalled current.taskKind)) fun _ =>
  onScheduler (Calls.update id current.generation { reschedule := .runNow }) fun snapshot =>
  pure (.ok
    ({ state with
        remoteJobs :=
          state.remoteJobs.insert id { current with generation := snapshot.version } },
      some (jobStatus snapshot current.revision)))

/-! ## 5. The whole catalog -/

/-- Parse and check every definition before anything is done. -/
def compileAll : List JobId → List JobDefinition → Except ControlError (List CompiledJob)
  | _, [] => .ok []
  | ids, definition :: rest => do
    let id ← Except.mapError invalidJob (parseUuid definition.jobId "job_id")
    if id ∈ ids then throw (invalidJob "replace_all contains duplicate job_id")
    let job ← compileChecked factory policy definition
    let jobs ← compileAll (id :: ids) rest
    return job :: jobs

/-- `collect::<HashMap<_, _>>()` of the versions in a list of snapshots: the last one counts. -/
def versionIn (snapshots : List JobSnapshot) (id : JobId) : Option Nat :=
  (snapshots.reverse.find? fun snapshot => snapshot.id = id).map JobSnapshot.version

/-- Every remote Job is in the scheduler, at the generation recorded for it. -/
def checkGenerations (snapshots : List JobSnapshot) :
    List (JobId × ManagedJob) → Except ControlError Unit
  | [] => .ok ()
  | (id, managed) :: rest =>
    match versionIn snapshots id with
    | some version =>
      if version = managed.generation then checkGenerations snapshots rest
      else
        .error (.rejected .revisionConflict
          ("Scheduler generation for " ++ Uuid.text id ++ " changed from " ++
            toString managed.generation ++ " to " ++ toString version))
    | none =>
      .error (.rejected .schedulerUnavailable
        ("remote Job " ++ Uuid.text id ++ " is missing from Scheduler"))

/-- No id belongs to a Job of somebody else. -/
def checkOwnership (snapshots : List JobSnapshot) : List JobId → Except ControlError Unit
  | [] => .ok ()
  | id :: rest =>
    if ¬ state.remoteJobs.contains id ∧ (versionIn snapshots id).isSome then
      .error (.rejected .ownershipConflict
        ("Job " ++ Uuid.text id ++ " is owned by local Scheduler configuration"))
    else checkOwnership snapshots rest

def checkCapacity (snapshots : List JobSnapshot) (count maxJobs : Nat) : Except ControlError Unit :=
  let finalJobCount := (snapshots.length - state.remoteJobs.len) + count
  if maxJobs < finalJobCount then
    .error (.rejected .capacityExceeded
      ("replace-all would create " ++ toString finalJobCount ++
        " Jobs, exceeding the Scheduler limit " ++ toString maxJobs))
  else .ok ()

/-- What becomes of a definition: nothing if it is the one applied last. -/
def planJobs : List CompiledJob → Except ControlError SchedulerReconcilePlan
  | [] => .ok {}
  | job :: rest =>
    match state.remoteJobs.get job.id with
    | some current =>
      if job.revision < current.revision then
        .error (.rejected .revisionConflict "job revision must not move backwards")
      else if job.revision = current.revision ∧ job.definition ≠ current.definition then
        .error (.rejected .revisionConflict "same job revision contains different definition")
      else if job.definition ≠ current.definition then do
        let plan ← planJobs rest
        return { plan with
          updates :=
            ⟨job.id, current.generation, fullPatch job.trigger job.task job.options,
              job.enabled⟩ :: plan.updates }
      else planJobs rest
    | none => do
      let plan ← planJobs rest
      return { plan with
        additions := ⟨job.id, job.enabled, job.trigger, job.task, job.options⟩ :: plan.additions }

/-- The remote Jobs the catalog no longer has. -/
def planDeletions (ids : List JobId) : List (JobId × Nat) :=
  (state.remoteJobs.entries.filter fun e => e.1 ∉ ids).map fun e => (e.1, e.2.generation)

/-- The generation recorded for a Job: the old one if its definition is, else what the scheduler
    answered. -/
def appliedGeneration (applied : List JobSnapshot) (job : CompiledJob) : Option Nat :=
  (((state.remoteJobs.get job.id).filter fun current =>
      decide (current.definition = job.definition)).map ManagedJob.generation).or
    (versionIn applied job.id)

/-- The new record of remote Jobs. -/
def recordApplied (applied : List JobSnapshot) :
    List CompiledJob → Table JobId ManagedJob → Except ControlError (Table JobId ManagedJob)
  | [], remoteJobs => .ok remoteJobs
  | job :: rest, remoteJobs =>
    match appliedGeneration state applied job with
    | some generation =>
      recordApplied applied rest (remoteJobs.insert job.id (job.managed generation))
    | none =>
      .error (.rejected .schedulerUnavailable
        "reconciled Job is missing from Scheduler result")

def replaceAll (command : ReplaceAllJobs) :
    Calls (Except ControlError (ControllerState × Option JobStatus)) :=
  checked (requireReplaceAllCatalog state command.catalogRevision) fun _ =>
  checked (compileAll factory policy [] command.jobs) fun jobs =>
  onScheduler Calls.list fun snapshots =>
  checked (checkGenerations snapshots state.remoteJobs.entries) fun _ =>
  checked (checkOwnership state snapshots (jobs.map CompiledJob.id)) fun _ =>
  onScheduler Calls.getConfig fun scheduler =>
  checked (checkCapacity state snapshots jobs.length scheduler.config.maxJobs) fun _ =>
  checked (planJobs state jobs) fun plan =>
  onScheduler
    (Calls.reconcile
      { plan with deletions := planDeletions state (jobs.map CompiledJob.id) }) fun applied =>
  checked (recordApplied state applied jobs Table.empty) fun remoteJobs =>
  pure (.ok
    ({ state with remoteJobs := remoteJobs, catalogRevision := command.catalogRevision }, none))

end Operations

/-! ## 6. Commands -/

section Commands

variable (factory : TaskFactory) (policy : RemoteJobPolicy) (state : ControllerState)

def applyAction (action : Option Action) :
    Calls (Except ControlError (ControllerState × Option JobStatus)) :=
  match action with
  | some (.upsert command) => upsert factory policy state command
  | some (.delete command) => delete state command
  | some (.runNow command) => runNow policy state command
  | some (.replaceAll command) => replaceAll factory policy state command
  | none => pure (.error (invalidCommand "job command action is required"))

def applyLocked (command : JobCommand) :
    Calls (JobCommandResult × ControllerState) := do
  match ← applyAction factory policy state command.action with
  | .ok (state, status) =>
    return ({ commandId := command.commandId, status := .applied
              catalogRevision := state.catalogRevision, job := status, error := none }, state)
  | .error e => return (commandError command.commandId state.catalogRevision e, state)

/-- A command is applied once; sent again, it gets its first answer. -/
def applyCommand (command : JobCommand) :
    Calls (JobCommandResult × ControllerState) :=
  match parseUuid command.commandId "command_id" with
  | .error e => pure (commandError command.commandId 0 (invalidCommand e), state)
  | .ok commandId =>
    match state.cachedResults.get commandId with
    | some result => pure (result, state)
    | none => do
      let (result, state) ← applyLocked factory policy state command
      return (result,
        if shouldCacheResult result then cacheResult state commandId result else state)

/-! ## 7. Local operations -/

/-- Disable the Jobs one by one and note their new generations; the first error ends it. -/
def disableAll (reason : String) :
    List (JobId × ManagedJob) → ControllerState → Calls (Except SchedulerError Unit × ControllerState)
  | [], state => pure (.ok (), state)
  | (id, managed) :: rest, state => do
    match ← Calls.disable id managed.generation reason with
    | .error e => return (.error e, state)
    | .ok snapshot =>
      disableAll reason rest
        { state with
          remoteJobs :=
            state.remoteJobs.modify id fun current =>
              { current with generation := snapshot.version } }

/-- The remote Jobs the policy denies, in the order of the map. -/
def deniedJobs : List (JobId × ManagedJob) :=
  state.remoteJobs.entries.filter fun e => policy.denies e.2.taskKind

def policyReason : String := "disabled by local Agent Job policy"

/-- `update_policy`, with the outcome of writing the policy file: the result, the policy now in
    force and the controller. -/
def updatePolicy (change : RemoteJobPolicyChange) (persist : Except String Unit) :
    Calls (Except String Nat × RemoteJobPolicy × ControllerState) :=
  match policy.apply change persist with
  | (.error e, policy) => pure (.error e, policy, state)
  | (.ok false, policy) => pure (.ok 0, policy, state)
  | (.ok true, policy) => do
    let denied := deniedJobs policy state
    match ← disableAll policyReason denied state with
    | (.ok _, state) => return (.ok denied.length, policy, state)
    | (.error e, state) => return (.error e.text, policy, state)

def pauseReason : String := "Plus Worker paused after repeated failures"

/-- The remote Jobs of one plugin. -/
def pluginJobs (plugin : String × String) : List (JobId × ManagedJob) :=
  state.remoteJobs.entries.filter fun e => e.2.plugin = some plugin

def pausePlugin (plugin : String × String) : Calls (Except String Nat × ControllerState) :=
  if plugin ∈ state.pausedPlugins then pure (.ok 0, state)
  else do
    let matching := pluginJobs state plugin
    match ← disableAll pauseReason matching state with
    | (.ok _, state) =>
      return (.ok matching.length, { state with pausedPlugins := plugin :: state.pausedPlugins })
    | (.error e, state) => return (.error e.text, state)

def resumePlugin (plugin : String × String) : ControllerState :=
  { state with pausedPlugins := state.pausedPlugins.filter (· ≠ plugin) }

/-- Delete the Jobs one by one; the first error ends it. -/
def deleteAll :
    List (JobId × ManagedJob) → ControllerState → Calls (Except SchedulerError Unit × ControllerState)
  | [], state => pure (.ok (), { state with catalogRevision := 0 })
  | (id, managed) :: rest, state => do
    match ← Calls.delete id managed.generation with
    | .error e => return (.error e, state)
    | .ok _ => deleteAll rest { state with remoteJobs := state.remoteJobs.remove id }

def clearRemoteJobs : Calls (Except SchedulerError Unit × ControllerState) :=
  deleteAll state.remoteJobs.entries state

end Commands

end Smalux.Remote
