/-
  Subject:   Adding, updating, enabling, disabling and deleting Jobs, the reconcile plan, and the
             dynamic configuration (management.rs).

  A command that can fail answers an `Except` together with the state it leaves: the state is kept
  on the error path too, since not every command leaves it untouched there.
-/
import Smalux.Scheduler.Actor

namespace Smalux.Scheduler

open Lib Table List

variable {e : SchedulerError} {plan : JobUpdatePlan} {expected : Nat}

/-! ## 1. Options and patches -/

/-- The options a Job's checks are made with. -/
def jobOptionsFromEntry (job : JobEntry) : JobOptions where
  concurrency := job.concurrency
  maxPending := job.maxPending
  priority := job.priority
  coalescing := some job.coalescing
  capacity := some job.capacity
  retry := job.retry
  failure := job.failure

/-- `apply_patch_value`: keep, set or inherit. -/
def PatchValue.apply {α : Type} (target : Option α) : PatchValue α → Option α
  | .keep => target
  | .set value => some value
  | .inherit_ => none

def patchedJobOptions (job : JobEntry) (patch : JobPatch) : JobOptions where
  concurrency := patch.concurrency.apply job.concurrency
  maxPending := patch.maxPending.apply job.maxPending
  priority := patch.priority.getD job.priority
  coalescing := some (patch.coalescing.getD job.coalescing)
  capacity := some (patch.capacity.getD job.capacity)
  retry := patch.retry.getD job.retry
  failure := patch.failure.getD job.failure

def applyConfigPatch (config : SchedulerConfig) (patch : SchedulerConfigPatch) : SchedulerConfig :=
  { config with
    globalConcurrency := patch.globalConcurrency.getD config.globalConcurrency
    defaultJobConcurrency := patch.defaultJobConcurrency.getD config.defaultJobConcurrency
    globalMaxPending := patch.globalMaxPending.getD config.globalMaxPending
    defaultJobMaxPending := patch.defaultJobMaxPending.getD config.defaultJobMaxPending
    dueBatchSize := patch.dueBatchSize.getD config.dueBatchSize
    maxJobs := patch.maxJobs.getD config.maxJobs
    shutdownTimeout := patch.shutdownTimeout.getD config.shutdownTimeout
    minimumInterval := patch.minimumInterval.getD config.minimumInterval
    minimumRetryDelay := patch.minimumRetryDelay.getD config.minimumRetryDelay
    maximumCatchUp := patch.maximumCatchUp.getD config.maximumCatchUp
    maximumRetryAttempts := patch.maximumRetryAttempts.getD config.maximumRetryAttempts }

/-- A new trigger cannot keep the old planned time. -/
def JobPatch.effectiveReschedule (patch : JobPatch) : RescheduleMode :=
  if patch.trigger.isSome ∧ patch.reschedule = .preserve then .recalculate else patch.reschedule

/-- The ids `reconcile_jobs` answers for. -/
def SchedulerReconcilePlan.targetIds (plan : SchedulerReconcilePlan) : List JobId :=
  plan.updates.map (·.jobId) ++ plan.additions.map (·.jobId)

/-- An update that has passed every check. -/
structure JobUpdatePlan where
  nextVersion : Nat
  nextRunAt : Option DateTime
  reschedule : RescheduleMode
  triggerChanged : Bool
  taskChanged : Bool
  deriving DecidableEq, Repr

namespace SchedulerActor

variable (env : Env) (a : SchedulerActor) (jobId : JobId) {job : JobEntry} {expectedVersion : Nat}
  {patch : JobPatch}

/-! ## 2. Snapshots and the version check -/

def snapshot (job : JobEntry) : JobSnapshot where
  id := jobId
  version := job.version
  taskKind := job.task.kind
  state := job.state
  trigger := job.trigger
  priority := job.priority
  concurrency := ((job.concurrency.getD a.config.defaultJobConcurrency : ℕ+) : Nat)
  maxPending := job.maxPending.getD a.config.defaultJobMaxPending
  runningCount := job.runningCount
  pendingCount := a.ready.countJob jobId + job.blocked.length
  consecutiveFailures := job.consecutiveFailures
  nextRunAt := job.nextRunAt
  lastStartedAt := job.lastStartedAt
  lastFinishedAt := job.lastFinishedAt
  lastOutcome := job.lastOutcome
  createdAt := job.createdAt
  updatedAt := job.updatedAt

/-- The Job, if it exists at the version the caller expects. -/
def checkVersion (expected : Nat) : Except SchedulerError JobEntry :=
  match a.jobs.get jobId with
  | none => .error (.jobNotFound jobId)
  | some job =>
    if job.version = expected then .ok job
    else .error (.versionConflict jobId expected job.version)

variable {a jobId} in
theorem checkVersion_ok (h : a.checkVersion jobId expected = .ok job) :
    a.jobs.get jobId = some job ∧ job.version = expected := by
  unfold checkVersion at h
  split at h
  · cases h
  · rename_i job' hj
    split at h
    · rename_i hv
      cases h
      exact ⟨hj, hv⟩
    · cases h

variable {a jobId} in
theorem checkVersion_error (h : a.checkVersion jobId expected = .error e) (job : JobEntry)
    (hj : a.jobs.get jobId = some job) : job.version ≠ expected := by
  unfold checkVersion at h
  rw [hj] at h
  dsimp only at h
  split at h
  · cases h
  · assumption

/-! ## 3. Add -/

/-- `loop { JobId::new_v4() }`: the first fresh id that no Job has, and the number of ids drawn.
    One more try than there are Jobs is always enough. -/
def freshJobId (jobs : Table JobId JobEntry) : Nat → Nat → JobId × Nat
  | 0, n => (env.jobIds n, n + 1)
  | fuel + 1, n =>
    if jobs.contains (env.jobIds n) then freshJobId jobs fuel (n + 1) else (env.jobIds n, n + 1)

theorem freshJobId_spec (jobs : Table JobId JobEntry) : ∀ (fuel n : Nat),
    jobs.get (freshJobId env jobs fuel n).1 = none ∨ ∀ i ≤ fuel, env.jobIds (n + i) ∈ jobs.keys
  | 0, n => by
    by_cases h : jobs.get (env.jobIds n) = none
    · exact .inl h
    · refine .inr fun i hi => ?_
      rw [Nat.le_zero.mp hi]
      by_contra hk
      exact h (get_eq_none_iff.mpr hk)
  | fuel + 1, n => by
    unfold freshJobId
    split
    · rename_i hc
      rcases freshJobId_spec jobs fuel (n + 1) with h | h
      · exact .inl h
      · refine .inr fun i hi => ?_
        cases i with
        | zero => exact mem_keys_iff.mpr (contains_iff.mp hc)
        | succ i =>
          have := h i (by omega)
          rwa [show n + 1 + i = n + (i + 1) by omega] at this
    · rename_i hc
      exact .inl (contains_eq_false_iff.mp (by simpa using hc))

theorem freshJobId_get (jobs : Table JobId JobEntry) (n : Nat) :
    jobs.get (freshJobId env jobs jobs.len n).1 = none := by
  refine (freshJobId_spec env jobs jobs.len n).resolve_right fun h => ?_
  have hn : ((List.range (jobs.len + 1)).map fun i => env.jobIds (n + i)).Nodup := by
    refine List.Nodup.map (fun i j hij => ?_) nodup_range
    have := env.jobIds_injective hij
    omega
  have hs : ((List.range (jobs.len + 1)).map fun i => env.jobIds (n + i)) ⊆ jobs.keys := by
    intro id hid
    obtain ⟨i, hi, rfl⟩ := mem_map.mp hid
    exact h i (Nat.lt_succ_iff.mp (mem_range.mp hi))
  have hl := (subperm_of_subset hn hs).length_le
  simp [Table.keys, Table.len] at hl

/-- The entry `add_job` installs. -/
def newEntry (generation : Nat) (enabled : Bool) (trigger : Trigger) (task : TaskBinding)
    (options : JobOptions) (now : DateTime) : JobEntry where
  version := generation
  task := task.inner
  cancellationMode := task.cancellationMode
  trigger := trigger
  concurrency := options.concurrency
  maxPending := options.maxPending
  priority := options.priority
  coalescing := (effectiveQueuePolicies trigger options).1
  capacity := (effectiveQueuePolicies trigger options).2
  retry := options.retry
  failure := options.failure
  state := if enabled then .enabled else .disabled "installed disabled"
  normalTimerKey := none
  nextRunAt := none
  blocked := []
  runningCount := 0
  consecutiveFailures := 0
  lastStartedAt := none
  lastFinishedAt := none
  lastOutcome := none
  lastFiredAt := none
  createdAt := now
  updatedAt := now

/-- Store a new Job, set its first timer if it is enabled. -/
def installJob (id : JobId) (entry : JobEntry) (enabled : Bool) (firstRun : DateTime) :
    SchedulerActor :=
  let a := { a with jobs := a.jobs.insert id entry }
  let a := if enabled then a.scheduleNormal env id firstRun .normal else a
  a.emit env (.jobAdded id entry.version)

theorem get_installJob (entry : JobEntry) (enabled : Bool) (firstRun : DateTime) (id : JobId) :
    (a.installJob env jobId entry enabled firstRun).jobs.get id =
      if id = jobId then
        some (if enabled then scheduleEntry a.timers.nextKey firstRun entry else entry)
      else a.jobs.get id := by
  have hinsert := get_insert a.jobs jobId id entry
  cases enabled with
  | true =>
    have h := get_jobs_scheduleNormal env { a with jobs := a.jobs.insert jobId entry } jobId
      firstRun .normal id
    refine h.trans ?_
    by_cases hid : id = jobId
    · simp [hid]
    · simp [hid]
  | false => exact hinsert

@[simp] theorem ticks_installJob (entry : JobEntry) (enabled : Bool) (firstRun : DateTime) :
    (a.installJob env jobId entry enabled firstRun).ticks = a.ticks := by
  cases enabled with
  | true => exact ticks_scheduleNormal env _ jobId firstRun .normal
  | false => rfl

@[simp] theorem config_installJob (entry : JobEntry) (enabled : Bool) (firstRun : DateTime) :
    (a.installJob env jobId entry enabled firstRun).config = a.config := by
  cases enabled with
  | true => exact config_scheduleNormal env _ jobId firstRun .normal
  | false => rfl

def addJob (requestedId : Option JobId) (generation : Nat) (enabled : Bool) (trigger : Trigger)
    (task : TaskBinding) (options : JobOptions) : Except SchedulerError JobId × SchedulerActor :=
  if a.config.maxJobs ≤ a.jobs.len then (.error (.maximumJobsReached a.config.maxJobs), a)
  else
    match validateTrigger env.croner trigger options a.config with
    | .error e => (.error e, a)
    | .ok _ =>
      match validateTaskCancellationMode trigger task.cancellationMode with
      | .error e => (.error e, a)
      | .ok _ =>
        let now := a.now env
        let a := a.tick
        match requestedId with
        | some id =>
          if a.jobs.contains id then (.error (.jobAlreadyExists id), a)
          else
            match firstRunAt env.croner trigger now with
            | .error e => (.error e, a)
            | .ok firstRun =>
              (.ok id, a.installJob env id
                (newEntry generation enabled trigger task options now) enabled firstRun)
        | none =>
          let drawn := freshJobId env a.jobs a.jobs.len a.jobsIssued
          let a := { a with jobsIssued := drawn.2 }
          match firstRunAt env.croner trigger now with
          | .error e => (.error e, a)
          | .ok firstRun =>
            (.ok drawn.1, a.installJob env drawn.1
              (newEntry generation enabled trigger task options now) enabled firstRun)

/-- The id the next `add_job` would give its Job. -/
def addTarget (requestedId : Option JobId) : JobId :=
  requestedId.getD (freshJobId env a.jobs a.jobs.len a.jobsIssued).1

/-- Every check of `add_job` passes. -/
def addAccepted (requestedId : Option JobId) (trigger : Trigger) (task : TaskBinding)
    (options : JobOptions) : Bool :=
  decide (a.jobs.len < a.config.maxJobs) &&
    (validateTrigger env.croner trigger options a.config).isOk &&
    (validateTaskCancellationMode trigger task.cancellationMode).isOk &&
    !a.jobs.contains (a.addTarget env requestedId) &&
    (firstRunAt env.croner trigger (a.now env)).isOk

/-- **A new Job at a given id**: it is taken exactly if every check passes. -/
theorem addJob_some (generation : Nat) (enabled : Bool) (trigger : Trigger) (task : TaskBinding)
    (options : JobOptions) :
    if a.addAccepted env (some jobId) trigger task options = true then
      ∃ first, a.addJob env (some jobId) generation enabled trigger task options =
        (.ok jobId, a.tick.installJob env jobId
          (newEntry generation enabled trigger task options (a.now env)) enabled first)
    else ∃ e b, a.addJob env (some jobId) generation enabled trigger task options = (.error e, b) ∧
      b.jobs = a.jobs ∧ b.config = a.config := by
  unfold addAccepted addTarget addJob
  by_cases hl : a.jobs.len < a.config.maxJobs
  · rw [if_neg (Nat.not_le.mpr hl)]
    cases hv : validateTrigger env.croner trigger options a.config with
    | error => simp [Except.isOk, Except.toBool]
    | ok u =>
      cases hm : validateTaskCancellationMode trigger task.cancellationMode with
      | error => simp [Except.isOk, Except.toBool]
      | ok =>
        dsimp only
        by_cases hc : a.tick.jobs.contains jobId = true
        · have hc' : a.jobs.contains jobId = true := hc
          rw [if_pos hc]
          simp only [hc', Option.getD_some, Bool.not_true, Bool.and_false, Bool.false_and,
            Bool.false_eq_true, if_false]
          exact ⟨_, _, rfl, rfl, rfl⟩
        · have hc' : a.jobs.contains jobId = false := Bool.eq_false_iff.mpr hc
          rw [if_neg hc]
          cases hf : firstRunAt env.croner trigger (a.now env) with
          | error =>
            simp only [Except.isOk, Except.toBool, Bool.and_false, Bool.false_eq_true, if_false]
            exact ⟨_, _, rfl, rfl, rfl⟩
          | ok => simp [Except.isOk, Except.toBool, hl, hc']
  · simp [hl, Nat.not_lt.mp hl]

/-! ## 4. Update -/

/-- The next planned time of the updated Job. -/
def planNextRun (job : JobEntry) (trigger : Trigger) :
    RescheduleMode → Except SchedulerError (Option DateTime)
  | .preserve =>
    match job.nextRunAt with
    | some next => .ok (some next)
    | none =>
      if job.state = .enabled then (firstRunAt env.croner trigger (a.now env)).map some
      else .ok none
  | .recalculate => (firstRunAt env.croner trigger (a.now env)).map some
  | .runNow => .ok (some (a.now env))

variable {a} in
/-- The plan of an enabled Job has a next run. -/
theorem planNextRun_some {trigger : Trigger} {mode : RescheduleMode} {planned : Option DateTime}
    (he : job.state = .enabled) (h : a.planNextRun env job trigger mode = .ok planned) :
    ∃ next, planned = some next := by
  have hfirst : (firstRunAt env.croner trigger (a.now env)).map some = .ok planned →
      ∃ next, planned = some next := by
    intro hf
    cases hr : firstRunAt env.croner trigger (a.now env) with
    | error => rw [hr] at hf; cases hf
    | ok next => rw [hr] at hf; exact ⟨next, (Except.ok.inj hf).symm⟩
  cases mode with
  | preserve =>
    dsimp only [planNextRun] at h
    split at h
    · rename_i next _
      exact ⟨next, (Except.ok.inj h).symm⟩
    · rw [if_pos he] at h
      exact hfirst h
  | recalculate => exact hfirst h
  | runNow => exact ⟨a.now env, (Except.ok.inj h).symm⟩

/-- Check an update against the current Job; nothing is changed. -/
def planJobUpdate (expectedVersion : Nat) (patch : JobPatch) :
    Except SchedulerError JobUpdatePlan :=
  match a.checkVersion jobId expectedVersion with
  | .error e => .error e
  | .ok job =>
    let trigger := patch.trigger.getD job.trigger
    let mode := (patch.task.map TaskBinding.cancellationMode).getD job.cancellationMode
    match validateTrigger env.croner trigger (patchedJobOptions job patch) a.config with
    | .error e => .error e
    | .ok _ =>
      match validateTaskCancellationMode trigger mode with
      | .error e => .error e
      | .ok _ =>
        match checkedSucc job.version with
        | none => .error (.versionOverflow jobId)
        | some nextVersion =>
          match a.planNextRun env job trigger patch.effectiveReschedule with
          | .error e => .error e
          | .ok nextRunAt =>
            .ok ⟨nextVersion, nextRunAt, patch.effectiveReschedule, patch.trigger.isSome,
              patch.task.isSome⟩

variable {a jobId} in
/-- **An update that passed its checks**: the Job was there at the expected version, the next
    version exists, the next run was computed, and trigger and options fit together. -/
theorem planJobUpdate_ok (h : a.planJobUpdate env jobId expectedVersion patch = .ok plan) :
    ∃ job, a.jobs.get jobId = some job ∧ job.version = expectedVersion ∧
      checkedSucc job.version = some plan.nextVersion ∧
      a.planNextRun env job (patch.trigger.getD job.trigger) patch.effectiveReschedule =
        .ok plan.nextRunAt ∧
      plan.triggerChanged = patch.trigger.isSome ∧ plan.taskChanged = patch.task.isSome ∧
      validateTrigger env.croner (patch.trigger.getD job.trigger) (patchedJobOptions job patch)
        a.config = .ok () ∧ validateTaskCancellationMode (patch.trigger.getD job.trigger)
        ((patch.task.map TaskBinding.cancellationMode).getD job.cancellationMode) = .ok () := by
  unfold planJobUpdate at h
  split at h
  · cases h
  · rename_i job hc
    obtain ⟨hj, hv⟩ := checkVersion_ok hc
    dsimp only at h
    split at h
    · cases h
    · rename_i hvalid
      split at h
      · cases h
      · rename_i hmode
        split at h
        · cases h
        · rename_i nextVersion hn
          split at h
          · cases h
          · rename_i nextRunAt hr
            cases h
            exact ⟨job, hj, hv, hn, hr, rfl, rfl, hvalid, hmode⟩

/-- The fields a patch sets. -/
def patchEntry (patch : JobPatch) (plan : JobUpdatePlan) (now : DateTime) (job : JobEntry) :
    JobEntry :=
  { job with
    trigger := patch.trigger.getD job.trigger
    task := (patch.task.map TaskBinding.inner).getD job.task
    cancellationMode := (patch.task.map TaskBinding.cancellationMode).getD job.cancellationMode
    concurrency := patch.concurrency.apply job.concurrency
    maxPending := patch.maxPending.apply job.maxPending
    priority := patch.priority.getD job.priority
    coalescing := patch.coalescing.getD job.coalescing
    capacity := patch.capacity.getD job.capacity
    retry := patch.retry.getD job.retry
    failure := patch.failure.getD job.failure
    version := plan.nextVersion
    updatedAt := now
    normalTimerKey := none
    nextRunAt := none }

/-- The work the Job had waiting: gone with a new trigger or task, else carried to the new
    version. -/
def updateWork (plan : JobUpdatePlan) (job : JobEntry) : JobEntry :=
  if plan.triggerChanged ∨ plan.taskChanged then { job with blocked := [], consecutiveFailures := 0 }
  else
    { job with
      blocked := job.blocked.map fun p => { p with version := job.version, priority := job.priority } }

/-- The queue after the update, given the updated Job. -/
def updateReady (plan : JobUpdatePlan) (jobId : JobId) (job : JobEntry) (ready : ReadyQueue) :
    ReadyQueue :=
  if plan.triggerChanged ∨ plan.taskChanged then (ready.removeJob jobId).2
  else
    let ready := ready.migrateJob jobId job.version job.priority
    if job.coalescing = .keepLatest then (ready.removeNormalTriggers jobId).2 else ready

section

variable (patch : JobPatch) (plan : JobUpdatePlan) (job : JobEntry)

/-- The entry and its waiting work change over to the new version; every timer of the Job goes.
    (The source takes the entry out of the map and puts it back.) -/
def applyPatch : SchedulerActor :=
  let patched := patchEntry patch plan (a.now env) job
  let a := { a.tick with timers := a.timers.removeKey job.normalTimerKey }
  let a := a.clearRetryTimers jobId
  let a := { a with ready := updateReady plan jobId patched a.ready }
  a.modifyJob jobId fun _ => updateWork plan patched

/-- An enabled Job gets its next timer. -/
def scheduleUpdated : SchedulerActor :=
  match job.state, plan.nextRunAt with
  | .enabled, some next =>
    a.scheduleNormal env jobId next
      (if plan.reschedule = RescheduleMode.runNow then .runNow else .normal)
  | _, _ => a

/-- With a new trigger or task, what still runs at the old version is cancelled. -/
def cancelReplaced : SchedulerActor :=
  if plan.triggerChanged ∨ plan.taskChanged then a.cancelJobVersion jobId job.version else a

@[simp] theorem jobs_cancelReplaced : (a.cancelReplaced jobId plan job).jobs = a.jobs := by
  unfold cancelReplaced
  split <;> rfl

/-- Commit a checked update. -/
def commitUpdate : SchedulerActor :=
  let a := a.applyPatch env jobId patch plan job
  let a := a.scheduleUpdated env jobId plan job
  let a := a.cancelReplaced jobId plan job
  a.emit env (.jobUpdated jobId plan.nextVersion)

/-- The Job a committed update leaves. -/
def updatedEntry : JobEntry :=
  let updated := updateWork plan (patchEntry patch plan (a.now env) job)
  match job.state, plan.nextRunAt with
  | .enabled, some next =>
    scheduleEntry (a.applyPatch env jobId patch plan job).timers.nextKey next updated
  | _, _ => updated

variable {a jobId job} in
theorem get_applyPatch (hj : a.jobs.get jobId = some job) (id : JobId) :
    (a.applyPatch env jobId patch plan job).jobs.get id =
      if id = jobId then some (updateWork plan (patchEntry patch plan (a.now env) job))
      else a.jobs.get id := by
  refine (get_modify a.jobs jobId id _).trans ?_
  by_cases hid : id = jobId
  · simp [hid, hj]
  · simp [hid]

variable {a jobId job} in
theorem get_commitUpdate (hj : a.jobs.get jobId = some job) (id : JobId) :
    (a.commitUpdate env jobId patch plan job).jobs.get id =
      if id = jobId then some (a.updatedEntry env jobId patch plan job) else a.jobs.get id := by
  have happly := get_applyPatch env patch plan hj id
  show (((a.applyPatch env jobId patch plan job).scheduleUpdated env jobId plan job).cancelReplaced
    jobId plan job).jobs.get id = _
  rw [jobs_cancelReplaced]
  unfold scheduleUpdated updatedEntry
  split
  · rw [get_jobs_scheduleNormal, happly]
    by_cases hid : id = jobId
    · simp [hid]
    · simp [hid]
  · exact happly

@[simp] theorem version_updatedEntry :
    (a.updatedEntry env jobId patch plan job).version = plan.nextVersion := by
  unfold updatedEntry updateWork
  split <;> split <;> rfl

@[simp] theorem state_updatedEntry :
    (a.updatedEntry env jobId patch plan job).state = job.state := by
  unfold updatedEntry updateWork
  split <;> split <;> rfl

@[simp] theorem ticks_commitUpdate :
    (a.commitUpdate env jobId patch plan job).ticks = a.ticks + 1 := by
  unfold commitUpdate scheduleUpdated cancelReplaced
  dsimp only
  split
  all_goals
    split
    · exact ticks_scheduleNormal env _ _ _ _
    · rfl

@[simp] theorem config_commitUpdate :
    (a.commitUpdate env jobId patch plan job).config = a.config := by
  unfold commitUpdate scheduleUpdated cancelReplaced
  dsimp only
  split
  all_goals
    split
    · exact config_scheduleNormal env _ _ _ _
    · rfl

end

def updateJob (expectedVersion : Nat) (patch : JobPatch) :
    Except SchedulerError JobSnapshot × SchedulerActor :=
  match a.planJobUpdate env jobId expectedVersion patch, a.jobs.get jobId with
  | .error e, _ => (.error e, a.tick)
  | .ok _, none => (.error (.jobNotFound jobId), a.tick)
  | .ok plan, some job =>
    let a := a.tick.commitUpdate env jobId patch plan job
    match a.jobs.get jobId with
    | some job => (.ok (a.snapshot jobId job), a)
    | none => (.error (.jobNotFound jobId), a)

variable {a jobId} in
/-- The plan of an update reads the Job, the configuration and the clock. -/
theorem planJobUpdate_congr {a' : SchedulerActor} (hc : a'.config = a.config)
    (hj : a'.jobs.get jobId = a.jobs.get jobId) (ht : a'.ticks = a.ticks) (expectedVersion : Nat)
    (patch : JobPatch) : a'.planJobUpdate env jobId expectedVersion patch =
      a.planJobUpdate env jobId expectedVersion patch := by
  have hn : a'.now env = a.now env := congrArg env.clock ht
  have hplan : ∀ job trigger mode, a'.planNextRun env job trigger mode =
      a.planNextRun env job trigger mode := by
    intro job trigger mode
    cases mode <;> simp only [planNextRun, hn]
  unfold planJobUpdate checkVersion
  rw [hj, hc]
  simp only [hplan]

variable {a jobId} in
theorem updateJob_error (h : a.planJobUpdate env jobId expectedVersion patch = .error e) :
    a.updateJob env jobId expectedVersion patch = (.error e, a.tick) := by
  unfold updateJob
  rw [h]

variable {a jobId} in
theorem updateJob_commit (h : a.planJobUpdate env jobId expectedVersion patch = .ok plan)
    (hj : a.jobs.get jobId = some job) : a.updateJob env jobId expectedVersion patch =
      (.ok ((a.tick.commitUpdate env jobId patch plan job).snapshot jobId
          (a.tick.updatedEntry env jobId patch plan job)),
        a.tick.commitUpdate env jobId patch plan job) := by
  have hget := get_commitUpdate env (a := a.tick) patch plan hj jobId
  rw [if_pos rfl] at hget
  unfold updateJob
  rw [h, hj]
  dsimp only
  rw [hget]

/-! ## 5. Enable, disable, delete -/

/-- What `enable_job` makes of a Job. -/
def enableEntry (version : Nat) (now : DateTime) (job : JobEntry) : JobEntry :=
  { job with version := version, state := .enabled, consecutiveFailures := 0, updatedAt := now }

/-- Drop what the Job has queued and its retry timers. -/
def dropWork : SchedulerActor :=
  ({ a with ready := (a.ready.removeJob jobId).2 }).clearRetryTimers jobId

/-- Commit a checked enable. -/
def commitEnable (version : Nat) (now next : DateTime) : SchedulerActor :=
  let a := a.modifyJob jobId (enableEntry version now)
  let a := a.scheduleNormal env jobId next .normal
  a.emit env (.jobEnabled jobId version)

theorem get_commitEnable (version : Nat) (now next : DateTime) (id : JobId) :
    (a.commitEnable env jobId version now next).jobs.get id =
      if id = jobId then
        (a.jobs.get id).map fun job =>
          scheduleEntry a.timers.nextKey next (enableEntry version now job)
      else a.jobs.get id := by
  have h := get_jobs_scheduleNormal env (a.modifyJob jobId (enableEntry version now)) jobId next
    .normal id
  have hmodify : (a.modifyJob jobId (enableEntry version now)).jobs.get id = _ :=
    get_modify a.jobs jobId id _
  rw [hmodify] at h
  refine h.trans ?_
  by_cases hid : id = jobId
  · simp [hid, modifyJob, Function.comp_def]
  · simp [hid]

/-- Enable a disabled or completed Job; an enabled one stays as it is. The waiting work is dropped
    before the checks that can still fail. -/
def enableJob (expectedVersion : Nat) : Except SchedulerError JobSnapshot × SchedulerActor :=
  match a.checkVersion jobId expectedVersion with
  | .error e => (.error e, a)
  | .ok job =>
    if job.state = .enabled then (.ok (a.snapshot jobId job), a)
    else
      let a := a.dropWork jobId
      let now := a.now env
      let a := a.tick
      match firstRunAt env.croner job.trigger now with
      | .error e => (.error e, a)
      | .ok next =>
        match checkedSucc job.version with
        | none => (.error (.versionOverflow jobId), a)
        | some version =>
          let a := a.commitEnable env jobId version now next
          match a.jobs.get jobId with
          | some job => (.ok (a.snapshot jobId job), a)
          | none => (.error (.jobNotFound jobId), a)

/-- How `enable_job` goes. -/
inductive EnableResult (a : SchedulerActor) (jobId : JobId) (version : Nat) :
    Except SchedulerError JobSnapshot × SchedulerActor → Prop where
  | refused (e : SchedulerError) (h : ∀ job, a.jobs.get jobId = some job → job.version ≠ version) :
      EnableResult a jobId version (.error e, a)
  | already (job : JobEntry) (hj : a.jobs.get jobId = some job) (hv : job.version = version)
      (hs : job.state = .enabled) : EnableResult a jobId version (.ok (a.snapshot jobId job), a)
  /-- a check fails after the waiting work has been dropped -/
  | dropped (job : JobEntry) (e : SchedulerError) (hj : a.jobs.get jobId = some job)
      (hv : job.version = version) (hs : job.state ≠ .enabled)
      (h : ¬ (version < u64Max ∧ (firstRunAt env.croner job.trigger (a.now env)).isOk = true)) :
      EnableResult a jobId version (.error e, (a.dropWork jobId).tick)
  | enabled (job entry : JobEntry) (next : DateTime) (hj : a.jobs.get jobId = some job)
      (hv : job.version = version) (hs : job.state ≠ .enabled) (hl : version < u64Max)
      (hf : firstRunAt env.croner job.trigger (a.now env) = .ok next)
      (he : entry = scheduleEntry (a.dropWork jobId).timers.nextKey next
        (enableEntry (version + 1) (a.now env) job))
      (hget : ((a.dropWork jobId).tick.commitEnable env jobId (version + 1) (a.now env)
        next).jobs.get jobId = some entry) :
      EnableResult a jobId version
        (.ok (((a.dropWork jobId).tick.commitEnable env jobId (version + 1) (a.now env)
            next).snapshot jobId entry),
          (a.dropWork jobId).tick.commitEnable env jobId (version + 1) (a.now env) next)

theorem enableJob_result (version : Nat) :
    EnableResult env a jobId version (a.enableJob env jobId version) := by
  unfold enableJob
  cases hc : a.checkVersion jobId version with
  | error e => exact .refused e (checkVersion_error hc)
  | ok job =>
    obtain ⟨hj, hv⟩ := checkVersion_ok hc
    dsimp only
    split
    · exact .already job hj hv ‹_›
    · rename_i hs
      split
      · rename_i e hf
        have hf : firstRunAt env.croner job.trigger (a.now env) = .error e := hf
        exact .dropped job _ hj hv hs fun h => by rw [hf] at h; cases h.2
      · rename_i next hf
        have hlt := checkedSucc_isSome job.version
        split
        · rename_i hn
          rw [hn] at hlt
          exact .dropped job _ hj hv hs fun h => of_decide_eq_false hlt.symm (hv ▸ h.1)
        · rename_i version' hn
          rw [hn] at hlt
          have hget := get_commitEnable env (a.dropWork jobId).tick jobId version' (a.now env) next
            jobId
          rw [if_pos rfl, show (a.dropWork jobId).tick.jobs.get jobId = some job from hj,
            Option.map_some] at hget
          rw [show ((a.dropWork jobId).tick.commitEnable env jobId version'
            ((a.dropWork jobId).now env) next).jobs.get jobId = _ from hget]
          rw [checkedSucc_eq_some hn, hv] at hget ⊢
          exact .enabled job _ next hj hv hs (hv ▸ of_decide_eq_true hlt.symm) hf rfl hget

def disableJob (expectedVersion : Nat) (reason : String) :
    Except SchedulerError JobSnapshot × SchedulerActor :=
  match a.checkVersion jobId expectedVersion with
  | .error e => (.error e, a)
  | .ok _ =>
    match a.forceDisable env jobId reason with
    | (.error e, a) => (.error e, a)
    | (.ok _, a) =>
      match a.jobs.get jobId with
      | some job => (.ok (a.snapshot jobId job), a)
      | none => (.error (.jobNotFound jobId), a)

/-- How `disable_job` goes. -/
inductive DisableResult (a : SchedulerActor) (jobId : JobId) (version : Nat) (reason : String) :
    Except SchedulerError JobSnapshot × SchedulerActor → Prop where
  | refused (e : SchedulerError)
      (h : ∀ job, a.jobs.get jobId = some job → job.version = version → ¬ version < u64Max) :
      DisableResult a jobId version reason (.error e, a)
  | disabled (job : JobEntry) (hj : a.jobs.get jobId = some job) (hv : job.version = version)
      (hl : version < u64Max) :
      DisableResult a jobId version reason
        (.ok ((a.commitDisable env jobId job (version + 1) reason).snapshot jobId
            (disableEntry (version + 1) reason (a.now env) job)),
          a.commitDisable env jobId job (version + 1) reason)

theorem disableJob_result (version : Nat) (reason : String) :
    DisableResult env a jobId version reason (a.disableJob env jobId version reason) := by
  unfold disableJob
  cases hc : a.checkVersion jobId version with
  | error e => exact .refused e fun job hj hv => absurd hv (checkVersion_error hc job hj)
  | ok job =>
    obtain ⟨hj, rfl⟩ := checkVersion_ok hc
    have hlt := checkedSucc_isSome job.version
    unfold forceDisable
    rw [hj]
    dsimp only
    cases hn : checkedSucc job.version with
    | none =>
      rw [hn] at hlt
      exact .refused _ fun _ _ _ => of_decide_eq_false hlt.symm
    | some version =>
      rw [hn] at hlt
      have hget := get_commitDisable env a jobId job version reason jobId
      rw [if_pos rfl, hj, Option.map_some] at hget
      dsimp only
      rw [hget, checkedSucc_eq_some hn]
      exact .disabled job hj rfl (of_decide_eq_true hlt.symm)

/-- Remove a Job with its timers and waiting work. -/
def commitDelete (job : JobEntry) (cancelRunning : Bool) : SchedulerActor :=
  let a :=
    { a with jobs := a.jobs.remove jobId, timers := a.timers.removeKey job.normalTimerKey }
  let a := a.clearRetryTimers jobId
  let a := { a with ready := (a.ready.removeJob jobId).2 }
  let a := if cancelRunning then a.cancelJobVersion jobId job.version else a
  a.emit env (.jobDeleted jobId job.version)

theorem get_commitDelete (job : JobEntry) (cancelRunning : Bool) (id : JobId) :
    (a.commitDelete env jobId job cancelRunning).jobs.get id =
      if id = jobId then none else a.jobs.get id := by
  have hjobs : (a.commitDelete env jobId job cancelRunning).jobs = a.jobs.remove jobId := by
    cases cancelRunning <;> rfl
  rw [hjobs, get_remove]

@[simp] theorem config_commitDelete (job : JobEntry) (cancelRunning : Bool) :
    (a.commitDelete env jobId job cancelRunning).config = a.config := by
  cases cancelRunning <;> rfl

def deleteJob (expectedVersion : Nat) (cancelRunning : Bool) :
    Except SchedulerError Unit × SchedulerActor :=
  match a.checkVersion jobId expectedVersion with
  | .error e => (.error e, a)
  | .ok job => (.ok (), a.commitDelete env jobId job cancelRunning)

/-! ## 6. The reconcile plan -/

/-- The first loop of the check: every update is planned, no id twice. -/
def checkUpdates (a : SchedulerActor) :
    List JobId → List SchedulerReconcileUpdate → Except SchedulerError (List JobId) × SchedulerActor
  | touched, [] => (.ok touched, a)
  | touched, update :: rest =>
    if update.jobId ∈ touched then
      (.error (.actor "Job appears more than once in reconcile plan"), a)
    else
      match a.planJobUpdate env update.jobId update.expectedVersion update.patch with
      | .error e => (.error e, a.tick)
      | .ok _ => checkUpdates a.tick (update.jobId :: touched) rest

/-- The second loop: every addition is new and well formed. Its first run is NOT computed here. -/
def checkAdditions (a : SchedulerActor) :
    List JobId → List SchedulerReconcileAddition → Except SchedulerError Unit
  | _, [] => .ok ()
  | touched, addition :: rest =>
    if addition.jobId ∈ touched ∨ a.jobs.contains addition.jobId then
      .error (.jobAlreadyExists addition.jobId)
    else
      match validateTrigger env.croner addition.trigger addition.options a.config with
      | .error e => .error e
      | .ok _ =>
        match validateTaskCancellationMode addition.trigger addition.task.cancellationMode with
        | .error e => .error e
        | .ok _ => checkAdditions a (addition.jobId :: touched) rest

/-- The third loop: every deletion names a Job at its version. -/
def checkDeletions (a : SchedulerActor) : List (JobId × Nat) → Except SchedulerError Unit
  | [] => .ok ()
  | (jobId, expectedVersion) :: rest =>
    match a.checkVersion jobId expectedVersion with
    | .error e => .error e
    | .ok _ => checkDeletions a rest

/-- Everything `reconcile_jobs` checks before it changes anything. -/
def checkPlan (plan : SchedulerReconcilePlan) : Except SchedulerError Unit × SchedulerActor :=
  let deleted := plan.deletions.map Prod.fst
  if ¬ deleted.Nodup then (.error (.actor "duplicate Job deletion in reconcile plan"), a)
  else
    match a.checkUpdates env deleted plan.updates with
    | (.error e, a) => (.error e, a)
    | (.ok touched, a) =>
      match a.checkAdditions env touched plan.additions with
      | .error e => (.error e, a)
      | .ok _ =>
        if a.config.maxJobs < a.jobs.len - plan.deletions.length + plan.additions.length then
          (.error (.maximumJobsReached a.config.maxJobs), a)
        else (a.checkDeletions plan.deletions, a)

/-- One update of the plan: the patch, then the requested state. -/
def applyUpdate (update : SchedulerReconcileUpdate) : Except SchedulerError Unit × SchedulerActor :=
  match a.updateJob env update.jobId update.expectedVersion update.patch with
  | (.error e, a) => (.error e, a)
  | (.ok snapshot, a) =>
    if update.enabled ∧ snapshot.state ≠ .enabled then
      let r := a.enableJob env snapshot.id snapshot.version
      (r.1.map fun _ => (), r.2)
    else if update.enabled = false ∧ snapshot.state = .enabled then
      let r := a.disableJob env snapshot.id snapshot.version
        "disabled by authoritative remote Job snapshot"
      (r.1.map fun _ => (), r.2)
    else (.ok (), a)

/-- Run an operation over a list and stop at the first error; what was done stays done. -/
def forEach {α : Type} (f : SchedulerActor → α → Except SchedulerError Unit × SchedulerActor) :
    List α → SchedulerActor → Except SchedulerError Unit × SchedulerActor
  | [], a => (.ok (), a)
  | x :: xs, a =>
    match f a x with
    | (.error e, a) => (.error e, a)
    | (.ok _, a) => forEach f xs a

def applyDeletion (deletion : JobId × Nat) : Except SchedulerError Unit × SchedulerActor :=
  a.deleteJob env deletion.1 deletion.2 true

/-- An addition is always installed at generation 1. -/
def applyAddition (addition : SchedulerReconcileAddition) :
    Except SchedulerError Unit × SchedulerActor :=
  let r := a.addJob env (some addition.jobId) 1 addition.enabled addition.trigger addition.task
    addition.options
  (r.1.map fun _ => (), r.2)

/-- Updates, then deletions, then additions. -/
def applyPlan (plan : SchedulerReconcilePlan) : Except SchedulerError Unit × SchedulerActor :=
  match forEach (applyUpdate env) plan.updates a with
  | (.error e, a) => (.error e, a)
  | (.ok _, a) =>
    match forEach (applyDeletion env) plan.deletions a with
    | (.error e, a) => (.error e, a)
    | (.ok _, a) => forEach (applyAddition env) plan.additions a

/-- Check the plan as a whole, then apply it. -/
def reconcileJobs (plan : SchedulerReconcilePlan) :
    Except SchedulerError (List JobSnapshot) × SchedulerActor :=
  match a.checkPlan env plan with
  | (.error e, a) => (.error e, a)
  | (.ok _, a) =>
    match a.applyPlan env plan with
    | (.error e, a) => (.error e, a)
    | (.ok _, a) =>
      (.ok (plan.targetIds.filterMap fun jobId => (a.jobs.get jobId).map (a.snapshot jobId)), a)

/-! ## 7. Configuration -/

/-- Whether a Job violates the limits of the configuration. -/
def violatesLimits (job : JobEntry) : Bool :=
  !(validateTrigger env.croner job.trigger (jobOptionsFromEntry job) a.config).isOk ||
    !(validateTaskCancellationMode job.trigger job.cancellationMode).isOk

def forceDisableAll (a : SchedulerActor) (reason : String) : List JobId → SchedulerActor
  | [] => a
  | jobId :: rest => forceDisableAll (a.forceDisable env jobId reason).2 reason rest

def disableJobsViolatingLimits : SchedulerActor :=
  a.forceDisableAll env "scheduler safety limits changed"
    ((a.jobs.entries.filter fun e => a.violatesLimits env e.2).map Prod.fst)

def updateConfig (expectedRevision : Nat) (patch : SchedulerConfigPatch) :
    Except SchedulerError SchedulerConfigSnapshot × SchedulerActor :=
  if a.configRevision ≠ expectedRevision then
    (.error (.configRevisionConflict expectedRevision a.configRevision), a)
  else
    match validateConfig (applyConfigPatch a.config patch) with
    | .error e => (.error e, a)
    | .ok _ =>
      match checkedSucc a.configRevision with
      | none => (.error .configRevisionOverflow, a)
      | some revision =>
        let a :=
          { a with configRevision := revision, config := applyConfigPatch a.config patch }
        let a := a.disableJobsViolatingLimits env
        let a := a.emit env (.schedulerConfigUpdated a.configRevision)
        (.ok ⟨a.configRevision, a.config⟩, a)

end SchedulerActor

end Smalux.Scheduler
