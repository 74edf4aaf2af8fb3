/-
  Subject:   When a reconcile plan is all-or-nothing.

  `reconcile_jobs` first checks the whole plan and then applies it, operation by operation. What
  the check does not cover is decided while the plan is applied: the first run of a new or
  re-enabled Job, the next run of an updated one (both read the clock again), and the version after
  an enable or disable. If such a step fails after another one took effect, half of the plan stays.

  * `PlanChecked` -- what the check guarantees;
  * **`reconcile_all_or_nothing_iff`** -- the plans that are all-or-nothing, exactly.
-/
import Smalux.Scheduler.Loop

namespace Smalux.Scheduler

open Lib SchedulerActor Table List Option

/-! ## 1. What a plan asks for -/

/-- What the definition of a Job sets. -/
structure JobSettings where
  trigger : Trigger
  task : ScheduledTask
  cancellationMode : TaskCancellationMode
  concurrency : Option ℕ+
  maxPending : Option Nat
  priority : JobPriority
  coalescing : TriggerCoalescing
  capacity : CapacityPolicy
  retry : ExecutionRetryPolicy
  failure : FailurePolicy
  deriving DecidableEq, Repr

def JobEntry.settings (job : JobEntry) : JobSettings where
  trigger := job.trigger
  task := job.task
  cancellationMode := job.cancellationMode
  concurrency := job.concurrency
  maxPending := job.maxPending
  priority := job.priority
  coalescing := job.coalescing
  capacity := job.capacity
  retry := job.retry
  failure := job.failure

/-- The settings a patch asks for. -/
def JobSettings.patched (s : JobSettings) (patch : JobPatch) : JobSettings where
  trigger := patch.trigger.getD s.trigger
  task := (patch.task.map TaskBinding.inner).getD s.task
  cancellationMode := (patch.task.map TaskBinding.cancellationMode).getD s.cancellationMode
  concurrency := patch.concurrency.apply s.concurrency
  maxPending := patch.maxPending.apply s.maxPending
  priority := patch.priority.getD s.priority
  coalescing := patch.coalescing.getD s.coalescing
  capacity := patch.capacity.getD s.capacity
  retry := patch.retry.getD s.retry
  failure := patch.failure.getD s.failure

/-- The settings of a new Job. -/
def JobSettings.fresh (trigger : Trigger) (task : TaskBinding) (options : JobOptions) :
    JobSettings where
  trigger := trigger
  task := task.inner
  cancellationMode := task.cancellationMode
  concurrency := options.concurrency
  maxPending := options.maxPending
  priority := options.priority
  coalescing := (effectiveQueuePolicies trigger options).1
  capacity := (effectiveQueuePolicies trigger options).2
  retry := options.retry
  failure := options.failure

/-- The Job is enabled exactly if the plan says so, and then it has a timer. -/
def JobEntry.Switched (job : JobEntry) (enabled : Bool) : Prop :=
  (enabled = true ↔ job.state = .enabled) ∧ (enabled = true → job.nextRunAt ≠ none)

def UpdateApplied (a a' : SchedulerActor) (update : SchedulerReconcileUpdate) : Prop :=
  ∃ job job', a.jobs.get update.jobId = some job ∧ a'.jobs.get update.jobId = some job' ∧
    job.version < job'.version ∧ job'.settings = job.settings.patched update.patch ∧
    job'.Switched update.enabled

def AdditionApplied (a' : SchedulerActor) (addition : SchedulerReconcileAddition) : Prop :=
  ∃ job', a'.jobs.get addition.jobId = some job' ∧ job'.version = 1 ∧
    job'.settings = .fresh addition.trigger addition.task addition.options ∧
    job'.Switched addition.enabled

/-- The ids a plan names. -/
def SchedulerReconcilePlan.ids (plan : SchedulerReconcilePlan) : List JobId :=
  plan.updates.map (·.jobId) ++ plan.deletions.map Prod.fst ++ plan.additions.map (·.jobId)

/-- The whole plan took effect, and nothing else. -/
structure PlanApplied (a : SchedulerActor) (plan : SchedulerReconcilePlan) (a' : SchedulerActor) :
    Prop where
  updates : ∀ update ∈ plan.updates, UpdateApplied a a' update
  deletions : ∀ deletion ∈ plan.deletions, a'.jobs.get deletion.1 = none
  additions : ∀ addition ∈ plan.additions, AdditionApplied a' addition
  others : ∀ id, id ∉ plan.ids → a'.jobs.get id = a.jobs.get id

/-- Jobs with their blocked lists, timers, retry timers and the queue are as they were. -/
structure SameWork (a a' : SchedulerActor) : Prop where
  jobs : a'.jobs = a.jobs
  timers : a'.timers = a.timers
  retryTimers : a'.retryTimers = a.retryTimers
  ready : a'.ready = a.ready

/-- An error leaves everything, a success applies everything. -/
def AllOrNothing (env : Env) (a : SchedulerActor) (plan : SchedulerReconcilePlan) : Prop :=
  match a.reconcileJobs env plan with
  | (.error _, a') => SameWork a a'
  | (.ok _, a') => PlanApplied a plan a'

/-! ## 2. What is decided only while the plan is applied -/

/-- The same state at another reading of the clock. -/
def SchedulerActor.atTick (a : SchedulerActor) (t : Nat) : SchedulerActor := { a with ticks := t }

section Conditions

variable (env : Env) (a : SchedulerActor)

variable (update : SchedulerReconcileUpdate)

/-- The update passes its checks at the given reading. -/
def planAt (t : Nat) (update : SchedulerReconcileUpdate) : Except SchedulerError JobUpdatePlan :=
  (a.atTick t).planJobUpdate env update.jobId update.expectedVersion update.patch

/-- Every update passes its checks, the first one at the reading `t`. -/
def updatesPlanned : Nat → List SchedulerReconcileUpdate → Bool
  | _, [] => true
  | t, update :: rest => (planAt env a t update).isOk && updatesPlanned (t + 1) rest

/-- Trigger, options and task of the new Job fit together. -/
structure AdditionChecked (addition : SchedulerReconcileAddition) : Prop where
  trigger : validateTrigger env.croner addition.trigger addition.options a.config = .ok ()
  mode : validateTaskCancellationMode addition.trigger addition.task.cancellationMode = .ok ()

/-- A plan that names no Job twice, updates and deletes Jobs at their versions, adds new ones, and
    stays within the limit. -/
structure PlanChecked (plan : SchedulerReconcilePlan) : Prop where
  updateIds : (plan.updates.map (·.jobId)).Nodup
  deletionIds : (plan.deletions.map Prod.fst).Nodup
  additionIds : (plan.additions.map (·.jobId)).Nodup
  kept : ∀ update ∈ plan.updates, update.jobId ∉ plan.deletions.map Prod.fst
  planned : updatesPlanned env a a.ticks plan.updates = true
  deletions : ∀ deletion ∈ plan.deletions, ∃ job, a.jobs.get deletion.1 = some job ∧
    job.version = deletion.2
  additions : ∀ addition ∈ plan.additions, a.jobs.get addition.jobId = none
  additionsChecked : ∀ addition ∈ plan.additions, AdditionChecked env a addition
  room : a.jobs.len - plan.deletions.length + plan.additions.length ≤ a.config.maxJobs

/-- The update turns the Job on or off. -/
def turnsOn (job : JobEntry) : Bool :=
  update.enabled && decide (job.state ≠ .enabled)

def turnsOff (job : JobEntry) : Bool :=
  !update.enabled && decide (job.state = .enabled)

/-- Turning the Job on or off can be done: a second version number is left, and a Job that is
    turned on has a first run. -/
def switchable (t : Nat) (update : SchedulerReconcileUpdate) (job : JobEntry) : Bool :=
  if turnsOn update job then
    (firstRunAt env.croner (update.patch.trigger.getD job.trigger) (env.clock (t + 2))).isOk &&
      decide (job.version + 1 < u64Max)
  else if turnsOff update job then decide (job.version + 1 < u64Max)
  else true

/-- How often an update reads the clock. -/
def readings (job : JobEntry) : Nat :=
  if turnsOn update job || turnsOff update job then 3 else 2

/-- Every update can be applied, the first one reading the clock from `t` on. -/
def updatesPossible : Nat → List SchedulerReconcileUpdate → Bool
  | _, [] => true
  | t, update :: rest =>
    match a.jobs.get update.jobId with
    | none => false
    | some job =>
      (planAt env a t update).isOk && switchable env t update job &&
        updatesPossible (t + readings update job) rest

/-- The reading after all updates. -/
def updatesEnd : Nat → List SchedulerReconcileUpdate → Nat
  | t, [] => t
  | t, update :: rest =>
    match a.jobs.get update.jobId with
    | none => t
    | some job => updatesEnd (t + readings update job) rest

/-- Every new Job has a first run. -/
def additionsPossible : Nat → List SchedulerReconcileAddition → Bool
  | _, [] => true
  | t, addition :: rest =>
    (firstRunAt env.croner addition.trigger (env.clock t)).isOk && additionsPossible (t + 1) rest

/-- The reading with which the application begins: the check read the clock once per update. -/
def applyFrom (plan : SchedulerReconcilePlan) : Nat := a.ticks + plan.updates.length

/-- Every operation of a plan that passed the check can be carried out. -/
def planPossible (plan : SchedulerReconcilePlan) : Bool :=
  updatesPossible env a (applyFrom a plan) plan.updates &&
    additionsPossible env (updatesEnd a (applyFrom a plan) plan.updates) plan.additions

/-- The very first operation fails, before it changes anything. -/
def firstFails (plan : SchedulerReconcilePlan) : Bool :=
  match plan.updates, plan.deletions, plan.additions with
  | update :: _, _, _ => !(planAt env a (applyFrom a plan) update).isOk
  | [], [], addition :: _ =>
    !(firstRunAt env.croner addition.trigger (env.clock (applyFrom a plan))).isOk
  | _, _, _ => false

/-- The plan is malformed, or it can be applied to its end, or it fails at once. -/
def ReconcileSafe (plan : SchedulerReconcilePlan) : Prop :=
  ¬ PlanChecked env a plan ∨ planPossible env a plan = true ∨ firstFails env a plan = true

end Conditions

/-! ## 3. One operation -/

/-- No Job but the one at `jobId` has changed, and no limit. -/
structure OnlyJob (jobId : JobId) (a a' : SchedulerActor) : Prop where
  config : a'.config = a.config
  other : ∀ id, id ≠ jobId → a'.jobs.get id = a.jobs.get id

namespace OnlyJob

variable {env : Env} {jobId : JobId} {a a' a'' : SchedulerActor}

theorem of_jobs (hc : a'.config = a.config) (hj : a'.jobs = a.jobs) : OnlyJob jobId a a' :=
  ⟨hc, fun id _ => by rw [hj]⟩

theorem trans (h : OnlyJob jobId a a') (h' : OnlyJob jobId a' a'') : OnlyJob jobId a a'' :=
  ⟨h'.config.trans h.config, fun id hid => (h'.other id hid).trans (h.other id hid)⟩

theorem commitUpdate {job : JobEntry} (patch : JobPatch) (plan : JobUpdatePlan)
    (hj : a.jobs.get jobId = some job) :
    OnlyJob jobId a (a.commitUpdate env jobId patch plan job) where
  config := config_commitUpdate env a jobId patch plan job
  other := fun id hid => by rw [get_commitUpdate env patch plan hj, if_neg hid]

theorem commitEnable (a : SchedulerActor) (version : Nat) (now next : DateTime) :
    OnlyJob jobId a (a.commitEnable env jobId version now next) where
  config := config_scheduleNormal env _ jobId next .normal
  other := fun id hid => by rw [get_commitEnable, if_neg hid]

theorem commitDisable (a : SchedulerActor) (job : JobEntry) (version : Nat) (reason : String) :
    OnlyJob jobId a (a.commitDisable env jobId job version reason) where
  config := rfl
  other := fun id hid => by rw [get_commitDisable, if_neg hid]

theorem installJob (a : SchedulerActor) (entry : JobEntry) (enabled : Bool) (firstRun : DateTime) :
    OnlyJob jobId a (a.installJob env jobId entry enabled firstRun) where
  config := config_installJob env a jobId entry enabled firstRun
  other := fun id hid => by rw [get_installJob, if_neg hid]

theorem len_new (h : OnlyJob jobId a a') (hn : a.jobs.get jobId = none) {entry : JobEntry}
    (he : a'.jobs.get jobId = some entry) : a'.jobs.len = a.jobs.len + 1 := by
  rw [← len_insert_new hn entry]
  refine len_congr fun id => ?_
  rw [get_insert]
  by_cases hid : id = jobId
  · rw [if_pos hid, hid, he]
  · rw [if_neg hid, h.other id hid]

end OnlyJob

/-- The state an update asks for. -/
def switchedState (update : SchedulerReconcileUpdate) (job : JobEntry) : JobState :=
  if turnsOn update job then .enabled
  else if turnsOff update job then .disabled "disabled by authoritative remote Job snapshot"
  else job.state

/-- What one update of the plan does, once its patch has passed the check again. -/
structure UpdateStep (env : Env) (a : SchedulerActor) (update : SchedulerReconcileUpdate)
    (job : JobEntry) (r : Except SchedulerError Unit × SchedulerActor) : Prop where
  only : OnlyJob update.jobId a r.2
  entry : ∃ job', r.2.jobs.get update.jobId = some job' ∧ job.version < job'.version ∧
    job'.settings = job.settings.patched update.patch ∧
    job'.state = (if r.1.isOk then switchedState update job else job.state) ∧
    (r.1.isOk = true → job'.Switched update.enabled)
  isOk : r.1.isOk = switchable env a.ticks update job
  ticks : r.1.isOk = true → r.2.ticks = a.ticks + readings update job

section Operations

variable {env : Env} {a : SchedulerActor} {job : JobEntry}

theorem exists_of_isOk {ε α : Type} {x : Except ε α} (h : x.isOk = true) : ∃ v, x = .ok v := by
  cases x with
  | error => cases h
  | ok v => exact ⟨v, rfl⟩

theorem settings_updatedEntry (a : SchedulerActor) (jobId : JobId) (patch : JobPatch)
    (plan : JobUpdatePlan) (job : JobEntry) :
    (a.updatedEntry env jobId patch plan job).settings = job.settings.patched patch := by
  unfold updatedEntry updateWork
  split <;> split <;> rfl

theorem applyUpdate_error {update : SchedulerReconcileUpdate} {e : SchedulerError}
    (h : a.planJobUpdate env update.jobId update.expectedVersion update.patch = .error e) :
    a.applyUpdate env update = (.error e, a.tick) := by
  unfold applyUpdate
  rw [updateJob_error env h]

section Switch

variable {b : SchedulerActor} {update : SchedulerReconcileUpdate} {job entry : JobEntry}
  (honly : OnlyJob update.jobId a b) (hget : b.jobs.get update.jobId = some entry)
  (hv : entry.version = job.version + 1)
  (hset : entry.settings = job.settings.patched update.patch) (hs : entry.state = job.state)
  (hticks : b.ticks = a.ticks + 2)
include honly hget hv hset hs hticks

/-- The patched Job is turned on. -/
theorem turnOn_step (hon : turnsOn update job = true) : UpdateStep env a update job
      ((b.enableJob env update.jobId entry.version).1.map fun _ => (),
        (b.enableJob env update.jobId entry.version).2) := by
  have hon' : update.enabled = true ∧ job.state ≠ .enabled := by simpa [turnsOn] using hon
  have hswitched : switchedState update job = .enabled := by rw [switchedState, if_pos hon]
  have htrigger : entry.trigger = update.patch.trigger.getD job.trigger :=
    congrArg JobSettings.trigger hset
  have hnow : b.now env = env.clock (a.ticks + 2) := congrArg env.clock hticks
  have hswitch : switchable env a.ticks update job = true ↔ entry.version < u64Max ∧
      (firstRunAt env.croner entry.trigger (b.now env)).isOk = true := by
    rw [switchable, if_pos hon, htrigger, hnow, hv, Bool.and_eq_true, decide_eq_true_eq, and_comm]
  have hres := enableJob_result env b update.jobId entry.version
  generalize b.enableJob env update.jobId entry.version = r at hres
  cases hres with
  | refused e h => exact absurd rfl (h entry hget)
  | already job' hj' _ hs' =>
    cases hget.symm.trans hj'
    exact absurd (hs.symm.trans hs') hon'.2
  | dropped job' e hj' _ _ hno =>
    cases hget.symm.trans hj'
    refine ⟨honly.trans (.of_jobs rfl rfl), ⟨entry, hget, by omega, hset, hs, nofun⟩,
      ?_, nofun⟩
    exact (Bool.eq_false_iff.mpr fun h => hno (hswitch.mp h)).symm
  | enabled job' entry' next hj' _ _ hl hf he hget' =>
    cases hget.symm.trans hj'
    subst he
    have hdrop : OnlyJob update.jobId b (b.dropWork update.jobId).tick := .of_jobs rfl rfl
    refine ⟨honly.trans (hdrop.trans (.commitEnable _ _ (b.now env) next)),
      ⟨_, hget', ?_, hset, hswitched.symm,
        fun _ => ⟨⟨fun _ => rfl, fun _ => hon'.1⟩, fun _ => some_ne_none _⟩⟩, ?_, fun _ => ?_⟩
    · show job.version < entry.version + 1
      omega
    · exact (hswitch.mpr ⟨hl, by rw [hf]; rfl⟩).symm
    · rw [readings, hon]
      show (scheduleNormal env _ update.jobId next .normal).ticks = _
      rw [ticks_scheduleNormal]
      show b.ticks + 1 = _
      rw [hticks]
      rfl

/-- The patched Job is turned off. -/
theorem turnOff_step (hon : ¬ turnsOn update job = true) (hoff : turnsOff update job = true)
    {reason : String} (hreason : switchedState update job = .disabled reason) :
    UpdateStep env a update job
      ((b.disableJob env update.jobId entry.version reason).1.map fun _ => (),
        (b.disableJob env update.jobId entry.version reason).2) := by
  have hoff' : update.enabled = false ∧ job.state = .enabled := by simpa [turnsOff] using hoff
  have hswitch : switchable env a.ticks update job = decide (entry.version < u64Max) := by
    rw [switchable, if_neg hon, if_pos hoff, hv]
  have hres := disableJob_result env b update.jobId entry.version reason
  generalize b.disableJob env update.jobId entry.version reason = r at hres
  cases hres with
  | refused e h =>
    refine ⟨honly, ⟨entry, hget, by omega, hset, hs, nofun⟩, ?_, nofun⟩
    rw [hswitch, decide_eq_false (h entry hget rfl)]
    rfl
  | disabled job' hj' _ hl =>
    cases hget.symm.trans hj'
    have hget' := get_commitDisable env b update.jobId entry (entry.version + 1) reason update.jobId
    rw [if_pos rfl, hget, map_some] at hget'
    have hno : ¬ update.enabled = true := by rw [hoff'.1]; exact Bool.false_ne_true
    refine ⟨honly.trans (.commitDisable b entry _ reason),
      ⟨_, hget', ?_, hset, hreason.symm, fun _ => ⟨⟨fun h => absurd h hno, nofun⟩,
        fun h => absurd h hno⟩⟩, ?_, fun _ => ?_⟩
    · show job.version < entry.version + 1
      omega
    · rw [hswitch, decide_eq_true hl]
      rfl
    · rw [readings, hoff, Bool.or_true]
      show b.ticks + 1 = _
      rw [hticks]
      rfl

end Switch

theorem applyUpdate_step {update : SchedulerReconcileUpdate} {plan : JobUpdatePlan}
    (hj : a.jobs.get update.jobId = some job)
    (h : a.planJobUpdate env update.jobId update.expectedVersion update.patch = .ok plan) :
    UpdateStep env a update job (a.applyUpdate env update) := by
  obtain ⟨job₀, hj₀, -, hsucc, hnext, -⟩ := planJobUpdate_ok env h
  rw [hj] at hj₀
  cases hj₀
  have hversion := checkedSucc_eq_some hsucc
  -- the patch has been applied: `b` is the state, `entry` the Job
  generalize hb : a.tick.commitUpdate env update.jobId update.patch plan job = b
  generalize hentry : a.tick.updatedEntry env update.jobId update.patch plan job = entry
  have honly : OnlyJob update.jobId a b := by
    rw [← hb]
    have htick : OnlyJob update.jobId a a.tick := .of_jobs rfl rfl
    exact htick.trans (.commitUpdate update.patch plan hj)
  have hget : b.jobs.get update.jobId = some entry := by
    rw [← hb, ← hentry, get_commitUpdate env update.patch plan (a := a.tick) hj, if_pos rfl]
  have hticks : b.ticks = a.ticks + 2 := by
    rw [← hb, ticks_commitUpdate]
    rfl
  have hv : entry.version = job.version + 1 := by rw [← hentry, version_updatedEntry, hversion]
  have hs : entry.state = job.state := by rw [← hentry, state_updatedEntry]
  have hset : entry.settings = job.settings.patched update.patch := by
    rw [← hentry, settings_updatedEntry]
  have htimer : job.state = .enabled → entry.nextRunAt ≠ none := by
    intro he
    obtain ⟨next, hn⟩ := planNextRun_some env he hnext
    rw [← hentry]
    unfold updatedEntry
    rw [he, hn]
    exact some_ne_none _
  unfold applyUpdate
  rw [updateJob_commit env h hj, hb, hentry]
  dsimp only
  by_cases hon : turnsOn update job = true
  · have hon' : update.enabled = true ∧ job.state ≠ .enabled := by simpa [turnsOn] using hon
    have hne : entry.state ≠ .enabled := by rw [hs]; exact hon'.2
    rw [if_pos ⟨hon'.1, hne⟩]
    exact turnOn_step honly hget hv hset hs hticks hon
  · by_cases hoff : turnsOff update job = true
    · have hoff' : update.enabled = false ∧ job.state = .enabled := by simpa [turnsOff] using hoff
      have he : entry.state = .enabled := by rw [hs]; exact hoff'.2
      rw [if_neg (by rw [hoff'.1]; simp), if_pos ⟨hoff'.1, he⟩]
      exact turnOff_step honly hget hv hset hs hticks hon hoff
        (by rw [switchedState, if_neg hon, if_pos hoff])
    · -- the Job is already as the plan wants it
      have hsame : update.enabled = true ↔ entry.state = .enabled := by
        rw [hs]
        cases henabled : update.enabled with
        | true => simpa [turnsOn, henabled] using hon
        | false => simpa [turnsOff, henabled] using hoff
      rw [if_neg fun h => h.2 (hsame.mp h.1), if_neg fun h => ?_]
      · refine ⟨honly, ⟨entry, hget, by omega, hset, ?_, fun _ => ⟨hsame, fun h => ?_⟩⟩, ?_,
          fun _ => ?_⟩
        · rw [switchedState, if_neg hon, if_neg hoff, ite_self, hs]
        · exact htimer (hs.symm.trans (hsame.mp h))
        · rw [switchable, if_neg hon, if_neg hoff]
          rfl
        · rw [readings, Bool.eq_false_iff.mpr hon, Bool.eq_false_iff.mpr hoff]
          exact hticks
      · have := hsame.mpr h.2
        rw [h.1] at this
        cases this

/-- A checked addition fails only if the new Job has no first run. -/
theorem applyAddition_eq {addition : SchedulerReconcileAddition} (hc : AdditionChecked env a addition)
    (hl : a.jobs.len < a.config.maxJobs) (hn : a.jobs.get addition.jobId = none) :
    a.applyAddition env addition =
      match firstRunAt env.croner addition.trigger (a.now env) with
      | .error e => (.error e, a.tick)
      | .ok first =>
        (.ok (), a.tick.installJob env addition.jobId
          (newEntry 1 addition.enabled addition.trigger addition.task addition.options (a.now env))
          addition.enabled first) := by
  have hno : a.tick.jobs.contains addition.jobId = false := contains_eq_false_iff.mpr hn
  unfold applyAddition addJob
  rw [if_neg (Nat.not_le.mpr hl), hc.trigger]
  dsimp only
  rw [hc.mode]
  rw [hno, if_neg Bool.false_ne_true]
  cases firstRunAt env.croner addition.trigger (a.now env) <;> rfl

end Operations

/-! ## 4. The three phases -/

section Phases

variable {env : Env} {a : SchedulerActor} {b : SchedulerActor} {α : Type}
  {f : SchedulerActor → α → Except SchedulerError Unit × SchedulerActor} {xs : List α}

theorem forEach_cons_error {x : α} (h : (f b x).1.isOk = false) : forEach f (x :: xs) b = f b x := by
  unfold forEach
  split
  · rename_i he
    rw [he]
  · rename_i he
    rw [he] at h
    cases h

theorem forEach_cons_ok {x : α} (h : (f b x).1.isOk = true) :
    forEach f (x :: xs) b = forEach f xs (f b x).2 := by
  rw [forEach]
  split
  · rename_i he
    rw [he] at h
    cases h
  · rename_i he
    rw [he]

/-- What the updates of the plan do, from a state `b` in which their Jobs are still those of `a`. -/
structure UpdatesPhase (env : Env) (a b : SchedulerActor) (updates : List SchedulerReconcileUpdate)
    (r : Except SchedulerError Unit × SchedulerActor) : Prop where
  config : r.2.config = a.config
  other : ∀ id, id ∉ updates.map (·.jobId) → r.2.jobs.get id = b.jobs.get id
  domain : ∀ id, r.2.jobs.get id = none ↔ b.jobs.get id = none
  isOk : r.1.isOk = updatesPossible env a b.ticks updates
  done : r.1.isOk = true → r.2.ticks = updatesEnd a b.ticks updates ∧
    ∀ update ∈ updates, UpdateApplied a r.2 update
  first : ∀ update rest, updates = update :: rest →
    if (planAt env a b.ticks update).isOk then ∃ job job', a.jobs.get update.jobId = some job ∧
      r.2.jobs.get update.jobId = some job' ∧ job.version < job'.version
    else SameWork b r.2

/-- The plan of an update at the state `b` is the one at `a`, read at another time. -/
theorem planJobUpdate_atTick (env : Env) {update : SchedulerReconcileUpdate}
    (hc : b.config = a.config) (hj : b.jobs.get update.jobId = a.jobs.get update.jobId) :
    b.planJobUpdate env update.jobId update.expectedVersion update.patch =
      planAt env a b.ticks update :=
  planJobUpdate_congr env (a := a.atTick b.ticks) hc hj rfl _ _

theorem forEach_applyUpdate : ∀ (updates : List SchedulerReconcileUpdate) {b : SchedulerActor},
    (updates.map (·.jobId)).Nodup → b.config = a.config →
    (∀ update ∈ updates, b.jobs.get update.jobId = a.jobs.get update.jobId) →
    (∀ update ∈ updates, a.jobs.get update.jobId ≠ none) →
    UpdatesPhase env a b updates (forEach (applyUpdate env) updates b)
  | [], b, _, hc, _, _ =>
    ⟨hc, fun _ _ => rfl, fun _ => Iff.rfl, rfl, fun _ => ⟨rfl, fun _ h => by cases h⟩,
      fun _ _ h => by cases h⟩
  | update :: rest, b, hnodup, hc, hsame, hthere => by
    rw [map_cons, nodup_cons] at hnodup
    obtain ⟨job, hj⟩ := ne_none_iff_exists'.mp (hthere update mem_cons_self)
    have hjb : b.jobs.get update.jobId = some job := (hsame update mem_cons_self).trans hj
    have hplan := planJobUpdate_atTick env hc (hsame update mem_cons_self)
    cases hp : planAt env a b.ticks update with
    | error =>
      rw [hp] at hplan
      have happly := applyUpdate_error hplan
      rw [forEach_cons_error (by rw [happly]; rfl), happly]
      refine ⟨hc, fun _ _ => rfl, fun _ => Iff.rfl, ?_, nofun, fun _ _ he => ?_⟩
      · rw [updatesPossible, hj]
        rw [hp]
        rfl
      · cases he
        rw [hp]
        exact ⟨rfl, rfl, rfl, rfl⟩
    | ok =>
      rw [hp] at hplan
      have hstep := applyUpdate_step hjb hplan
      obtain ⟨job', hj', hv, hset, -, hswitch⟩ := hstep.entry
      have hfirst : ∀ {a' : SchedulerActor}, a'.jobs.get update.jobId = some job' →
          ∀ update' rest', update :: rest = update' :: rest' →
            if (planAt env a b.ticks update').isOk then ∃ job job',
              a.jobs.get update'.jobId = some job ∧ a'.jobs.get update'.jobId = some job' ∧
              job.version < job'.version
            else SameWork b a' := by
        intro a' hkept update' rest' he
        cases he
        rw [hp]
        exact ⟨job, job', hj, hkept, hv⟩
      have hdomain : ∀ id, (b.applyUpdate env update).2.jobs.get id = none ↔
          b.jobs.get id = none := by
        intro id
        by_cases hid : id = update.jobId
        · rw [hid, hj', hjb]
          simp
        · rw [hstep.only.other id hid]
      have hpossible : updatesPossible env a b.ticks (update :: rest) =
          (switchable env b.ticks update job &&
            updatesPossible env a (b.ticks + readings update job) rest) := by
        rw [updatesPossible, hj]
        rw [hp]
        rfl
      by_cases hok : (b.applyUpdate env update).1.isOk = true
      · rw [forEach_cons_ok hok]
        have hne : ∀ other ∈ rest, other.jobId ≠ update.jobId := fun other ho he =>
          hnodup.1 (he ▸ mem_map_of_mem ho)
        have hrest := forEach_applyUpdate rest hnodup.2 (hstep.only.config.trans hc)
          (fun other ho => (hstep.only.other _ (hne other ho)).trans
            (hsame other (mem_cons_of_mem _ ho)))
          fun other ho => hthere other (mem_cons_of_mem _ ho)
        generalize forEach (applyUpdate env) rest (b.applyUpdate env update).2 = r at hrest
        -- the rest of the plan does not touch this Job again
        have hkept : r.2.jobs.get update.jobId = some job' :=
          (hrest.other _ hnodup.1).trans hj'
        have hticks := hstep.ticks hok
        refine ⟨hrest.config, fun id hid => ?_, fun id => (hrest.domain id).trans (hdomain id), ?_,
          fun h => ⟨?_, fun other ho => ?_⟩, hfirst hkept⟩
        · rw [map_cons, mem_cons, not_or] at hid
          rw [hrest.other id hid.2, hstep.only.other id hid.1]
        · rw [hpossible, ← hstep.isOk, hok, hrest.isOk, hticks]
          rfl
        · rw [(hrest.done h).1, hticks, updatesEnd, hj]
        · rcases mem_cons.mp ho with rfl | ho
          · exact ⟨job, job', hj, hkept, hv, hset, hswitch hok⟩
          · exact (hrest.done h).2 other ho
      · have hfalse := Bool.eq_false_iff.mpr hok
        rw [forEach_cons_error hfalse]
        refine ⟨hstep.only.config.trans hc, fun id hid => ?_, hdomain, ?_, fun h => absurd h hok,
          hfirst hj'⟩
        · refine hstep.only.other id fun he => hid ?_
          rw [he]
          exact mem_cons_self
        · rw [hpossible, ← hstep.isOk, hfalse]
          rfl

/-- What the deletions do: they cannot fail. -/
structure DeletionsPhase (b : SchedulerActor) (deletions : List (JobId × Nat))
    (r : Except SchedulerError Unit × SchedulerActor) : Prop where
  isOk : r.1 = .ok ()
  config : r.2.config = b.config
  ticks : r.2.ticks = b.ticks
  gone : ∀ deletion ∈ deletions, r.2.jobs.get deletion.1 = none
  other : ∀ id, id ∉ deletions.map Prod.fst → r.2.jobs.get id = b.jobs.get id
  len : r.2.jobs.len + deletions.length = b.jobs.len

theorem forEach_applyDeletion : ∀ (deletions : List (JobId × Nat)) {b : SchedulerActor},
    (deletions.map Prod.fst).Nodup →
    (∀ deletion ∈ deletions, ∃ job, b.jobs.get deletion.1 = some job ∧ job.version = deletion.2) →
    DeletionsPhase b deletions (forEach (applyDeletion env) deletions b)
  | [], b, _, _ =>
    ⟨rfl, rfl, rfl, nofun, fun _ _ => rfl, rfl⟩
  | (jobId, version) :: rest, b, hnodup, hthere => by
    rw [map_cons, nodup_cons] at hnodup
    obtain ⟨job, hj, hv⟩ := hthere (jobId, version) mem_cons_self
    have hcheck : b.checkVersion jobId version = .ok job := by simp [checkVersion, hj, hv]
    have happly : b.applyDeletion env (jobId, version) =
        (.ok (), b.commitDelete env jobId job true) := by
      unfold applyDeletion deleteJob
      rw [hcheck]
    have hget := get_commitDelete env b jobId job true
    rw [forEach_cons_ok (by rw [happly]; rfl), happly]
    dsimp only
    have hrest : DeletionsPhase (b.commitDelete env jobId job true) rest
        (forEach (applyDeletion env) rest (b.commitDelete env jobId job true)) := by
      refine forEach_applyDeletion rest hnodup.2 fun deletion hd => ?_
      obtain ⟨job', hj', hv'⟩ := hthere deletion (mem_cons_of_mem _ hd)
      have hne : deletion.1 ≠ jobId := by
        intro he
        exact hnodup.1 (mem_map.mpr ⟨deletion, hd, he⟩)
      exact ⟨job', by rw [hget, if_neg hne]; exact hj', hv'⟩
    refine ⟨hrest.isOk, hrest.config.trans (config_commitDelete env b jobId job true),
      hrest.ticks.trans rfl, fun deletion hd => ?_, fun id hid => ?_, ?_⟩
    · rcases mem_cons.mp hd with rfl | hd
      · rw [hrest.other jobId hnodup.1, hget, if_pos rfl]
      · exact hrest.gone deletion hd
    · rw [map_cons, mem_cons, not_or] at hid
      rw [hrest.other id hid.2, hget, if_neg hid.1]
    · have hlen : (b.commitDelete env jobId job true).jobs.len + 1 = b.jobs.len :=
        len_remove hj
      have := hrest.len
      rw [length_cons]
      omega

/-- What the additions do, once their ids are free and there is room for all of them. -/
structure AdditionsPhase (env : Env) (b : SchedulerActor)
    (additions : List SchedulerReconcileAddition)
    (r : Except SchedulerError Unit × SchedulerActor) : Prop where
  other : ∀ id, id ∉ additions.map (·.jobId) → r.2.jobs.get id = b.jobs.get id
  isOk : r.1.isOk = additionsPossible env b.ticks additions
  done : r.1.isOk = true → ∀ addition ∈ additions, AdditionApplied r.2 addition
  first : ∀ addition rest, additions = addition :: rest →
    if (firstRunAt env.croner addition.trigger (env.clock b.ticks)).isOk then
      r.2.jobs.get addition.jobId ≠ none
    else SameWork b r.2

/-- The Job a successful addition leaves. -/
theorem additionApplied_installed {a' : SchedulerActor} {addition : SchedulerReconcileAddition}
    {key : Nat} {now first : DateTime} (hj : a'.jobs.get addition.jobId = some
      (if addition.enabled then
        scheduleEntry key first (newEntry 1 addition.enabled addition.trigger addition.task
          addition.options now)
      else newEntry 1 addition.enabled addition.trigger addition.task addition.options now)) :
    AdditionApplied a' addition := by
  refine ⟨_, hj, ?_⟩
  cases addition.enabled with
  | true =>
    exact ⟨rfl, rfl, ⟨fun _ => rfl, fun _ => rfl⟩, fun _ => some_ne_none _⟩
  | false =>
    exact ⟨rfl, rfl, ⟨nofun, nofun⟩, nofun⟩

theorem forEach_applyAddition : ∀ (additions : List SchedulerReconcileAddition) {b : SchedulerActor},
    (additions.map (·.jobId)).Nodup → (∀ addition ∈ additions, b.jobs.get addition.jobId = none) →
    (∀ addition ∈ additions, AdditionChecked env b addition) →
    b.jobs.len + additions.length ≤ b.config.maxJobs →
    AdditionsPhase env b additions (forEach (applyAddition env) additions b)
  | [], b, _, _, _, _ =>
    ⟨fun _ _ => rfl, rfl, fun _ _ h => (by cases h), fun _ _ h => by cases h⟩
  | addition :: rest, b, hnodup, hfree, hchecked, hroom => by
    rw [map_cons, nodup_cons] at hnodup
    rw [length_cons] at hroom
    have hn := hfree addition mem_cons_self
    have happly := applyAddition_eq (hchecked addition mem_cons_self) (by omega) hn
    cases hf : firstRunAt env.croner addition.trigger (b.now env) with
    | error =>
      rw [hf] at happly
      have hfails : (firstRunAt env.croner addition.trigger (env.clock b.ticks)).isOk = false := by
        rw [show env.clock b.ticks = b.now env from rfl, hf]
        rfl
      rw [forEach_cons_error (by rw [happly]; rfl), happly]
      refine ⟨fun _ _ => rfl, ?_, nofun, fun _ _ he => ?_⟩
      · rw [additionsPossible, hfails]
        rfl
      · cases he
        rw [hfails]
        exact ⟨rfl, rfl, rfl, rfl⟩
    | ok first =>
      rw [hf] at happly
      dsimp only at happly
      have hworks : (firstRunAt env.croner addition.trigger (env.clock b.ticks)).isOk = true := by
        rw [show env.clock b.ticks = b.now env from rfl, hf]
        rfl
      rw [forEach_cons_ok (by rw [happly]; rfl), happly]
      generalize hb : b.tick.installJob env addition.jobId (newEntry 1 addition.enabled
        addition.trigger addition.task addition.options (b.now env)) addition.enabled first = b'
      have honly : OnlyJob addition.jobId b b' := by
        have htick : OnlyJob addition.jobId b b.tick := .of_jobs rfl rfl
        rw [← hb]
        exact htick.trans (.installJob b.tick _ addition.enabled first)
      have hself := get_installJob env b.tick addition.jobId (newEntry 1 addition.enabled
        addition.trigger addition.task addition.options (b.now env)) addition.enabled first
        addition.jobId
      rw [if_pos rfl, hb] at hself
      have hticks : b'.ticks = b.ticks + 1 := by
        rw [← hb, ticks_installJob]
        rfl
      have hlen : b'.jobs.len = b.jobs.len + 1 := honly.len_new hn hself
      have hrest : AdditionsPhase env b' rest (forEach (applyAddition env) rest b') := by
        refine forEach_applyAddition rest hnodup.2 (fun other ho => ?_) (fun other ho => ?_) ?_
        · rw [honly.other _ fun he => hnodup.1 (he ▸ mem_map_of_mem ho)]
          exact hfree other (mem_cons_of_mem _ ho)
        · obtain ⟨ht, hm⟩ := hchecked other (mem_cons_of_mem _ ho)
          exact ⟨by rw [honly.config]; exact ht, hm⟩
        · rw [hlen, honly.config]
          omega
      have hkept := (hrest.other _ hnodup.1).trans hself
      refine ⟨fun id hid => ?_, ?_, fun h other ho => ?_, fun _ _ he => ?_⟩
      · rw [map_cons, mem_cons, not_or] at hid
        rw [hrest.other id hid.2, honly.other id hid.1]
      · rw [hrest.isOk, hticks, additionsPossible, hworks]
        rfl
      · rcases mem_cons.mp ho with rfl | ho
        · exact additionApplied_installed hkept
        · exact hrest.done h other ho
      · cases he
        rw [hworks, if_pos rfl, hkept]
        exact some_ne_none _

end Phases

/-! ## 5. The check -/

section Check

variable {env : Env} {a : SchedulerActor}

/-- Only the clock is read, once per update. -/
theorem checkUpdates_ticks (env : Env) :
    ∀ (updates : List SchedulerReconcileUpdate) (touched : List JobId)
    (a : SchedulerActor), ∃ n, (a.checkUpdates env touched updates).2 = a.atTick n
  | [], _, a => ⟨a.ticks, rfl⟩
  | update :: rest, touched, a => by
    unfold checkUpdates
    split
    · exact ⟨a.ticks, rfl⟩
    · split
      · exact ⟨a.ticks + 1, rfl⟩
      · obtain ⟨n, hn⟩ := checkUpdates_ticks env rest (update.jobId :: touched) a.tick
        exact ⟨n, hn⟩

theorem updatesPlanned_there : ∀ {updates : List SchedulerReconcileUpdate} {a : SchedulerActor}
    {t : Nat}, updatesPlanned env a t updates = true → ∀ update ∈ updates,
    a.jobs.get update.jobId ≠ none
  | [], _, _, _, _, hm => absurd hm not_mem_nil
  | first :: rest, a, t, h, update, hm => by
    rw [updatesPlanned, Bool.and_eq_true] at h
    rcases mem_cons.mp hm with rfl | hm
    · obtain ⟨plan, hplan⟩ := exists_of_isOk h.1
      obtain ⟨job, hj, -⟩ := planJobUpdate_ok env hplan
      have hj : a.jobs.get update.jobId = some job := hj
      rw [hj]
      exact some_ne_none _
    · exact updatesPlanned_there h.2 update hm

/-- The plan of an update is read at its own time. -/
theorem updatesPlanned_tick (a : SchedulerActor) (updates : List SchedulerReconcileUpdate) (t : Nat) :
    updatesPlanned env a.tick t updates = updatesPlanned env a t updates := by
  induction updates generalizing t with
  | nil => rfl
  | cons update rest ih =>
    rw [updatesPlanned, updatesPlanned, ih]
    rfl

/-- Ids are new, one after another. -/
theorem fresh_cons_iff {id : JobId} {ids touched : List JobId} :
    ((id :: ids).Nodup ∧ ∀ x ∈ id :: ids, x ∉ touched) ↔
      id ∉ touched ∧ ids.Nodup ∧ ∀ x ∈ ids, x ∉ id :: touched := by
  grind

/-- The first loop: every update is of a Job not named before, and passes its checks. -/
theorem checkUpdates_iff : ∀ {updates : List SchedulerReconcileUpdate} {touched touched' : List JobId}
    {a a' : SchedulerActor}, a.checkUpdates env touched updates = (.ok touched', a') ↔
      ((updates.map (·.jobId)).Nodup ∧ ∀ id ∈ updates.map (·.jobId), id ∉ touched) ∧
        updatesPlanned env a a.ticks updates = true ∧
        (updates.map (·.jobId)).reverse ++ touched = touched' ∧
        a.atTick (a.ticks + updates.length) = a'
  | [], touched, touched', a, a' => by
    simp [checkUpdates, updatesPlanned, atTick]
  | update :: rest, touched, touched', a, a' => by
    have hplan : a.planJobUpdate env update.jobId update.expectedVersion update.patch =
        planAt env a a.ticks update := rfl
    have hlen : a.ticks + 1 + rest.length = a.ticks + (rest.length + 1) := by omega
    rw [map_cons, fresh_cons_iff, checkUpdates, updatesPlanned, hplan]
    by_cases hnew : update.jobId ∈ touched
    · simp [hnew]
    · rw [if_neg hnew]
      cases planAt env a a.ticks update with
      | error => simp [Except.isOk, Except.toBool]
      | ok =>
        dsimp only
        rw [checkUpdates_iff, updatesPlanned_tick]
        simp [hnew, Except.isOk, Except.toBool, hlen, SchedulerActor.tick, SchedulerActor.atTick]

/-- The second loop: every addition is new, and well formed. -/
theorem checkAdditions_iff : ∀ {additions : List SchedulerReconcileAddition} {touched : List JobId},
    a.checkAdditions env touched additions = .ok () ↔
      ((additions.map (·.jobId)).Nodup ∧ ∀ id ∈ additions.map (·.jobId), id ∉ touched) ∧
        ∀ addition ∈ additions, a.jobs.get addition.jobId = none ∧ AdditionChecked env a addition
  | [], _ => by simp [checkAdditions]
  | addition :: rest, touched => by
    rw [map_cons, fresh_cons_iff, forall_mem_cons, checkAdditions,
      ← contains_eq_false_iff]
    split
    · rename_i hold
      exact ⟨nofun, fun h => by simp [h.1.1, h.2.1.1] at hold⟩
    · rename_i hnew
      rw [not_or, Bool.not_eq_true] at hnew
      split
      · rename_i htrigger
        exact ⟨nofun, fun h => (nomatch htrigger.symm.trans h.2.1.2.trigger)⟩
      · rename_i htrigger
        split
        · rename_i hmode
          exact ⟨nofun, fun h => (nomatch hmode.symm.trans h.2.1.2.mode)⟩
        · rename_i hmode
          rw [checkAdditions_iff]
          exact ⟨fun h => ⟨⟨hnew.1, h.1⟩, ⟨hnew.2, htrigger, hmode⟩, h.2⟩,
            fun h => ⟨h.1.2, h.2.2⟩⟩

/-- The third loop. -/
theorem checkDeletions_iff : ∀ (deletions : List (JobId × Nat)),
    a.checkDeletions deletions = .ok () ↔
      ∀ deletion ∈ deletions, ∃ job, a.jobs.get deletion.1 = some job ∧ job.version = deletion.2
  | [] => by simp [checkDeletions]
  | (jobId, version) :: rest => by
    rw [forall_mem_cons, ← checkDeletions_iff rest, checkDeletions]
    cases hc : a.checkVersion jobId version with
    | error =>
      refine ⟨nofun, fun h => ?_⟩
      obtain ⟨⟨job, hj, hv⟩, -⟩ := h
      exact absurd hv (checkVersion_error hc job hj)
    | ok job => exact ⟨fun h => ⟨⟨job, checkVersion_ok hc⟩, h⟩, And.right⟩

/-- **The check changes nothing but the clock.** -/
theorem checkPlan_ticks (env : Env) (a : SchedulerActor) (plan : SchedulerReconcilePlan) :
    ∃ n, (a.checkPlan env plan).2 = a.atTick n := by
  obtain ⟨n, hn⟩ := checkUpdates_ticks env plan.updates (plan.deletions.map Prod.fst) a
  unfold checkPlan
  dsimp only
  split
  · exact ⟨a.ticks, rfl⟩
  · split
    · rename_i hu
      rw [hu] at hn
      exact ⟨n, hn⟩
    · rename_i hu
      rw [hu] at hn
      split
      · exact ⟨n, hn⟩
      · split <;> exact ⟨n, hn⟩

/-- **A plan that passed the check.** -/
theorem checkPlan_ok {plan : SchedulerReconcilePlan} (h : (a.checkPlan env plan).1.isOk = true) :
    PlanChecked env a plan ∧ a.checkPlan env plan = (.ok (), a.atTick (applyFrom a plan)) := by
  unfold checkPlan at h ⊢
  dsimp only at h ⊢
  split at h
  · cases h
  · rename_i hdel
    rw [if_neg hdel]
    rw [not_not] at hdel
    split at h
    · cases h
    · rename_i touched a' hu
      obtain ⟨⟨hids, hupd⟩, hplanned, -, rfl⟩ := checkUpdates_iff.mp hu
      split at h
      · cases h
      · rename_i hadd
        obtain ⟨⟨haids, -⟩, hadds⟩ := checkAdditions_iff.mp hadd
        split at h
        · cases h
        · rename_i hroom
          obtain ⟨_, hdeletions⟩ := exists_of_isOk h
          have hdeletions : (a.atTick (a.ticks + plan.updates.length)).checkDeletions
              plan.deletions = .ok () := hdeletions
          rw [if_neg hroom, hdeletions]
          refine ⟨⟨hids, hdel, haids, fun _ hm => hupd _ (mem_map_of_mem hm), hplanned,
            fun d hd => (checkDeletions_iff _).mp hdeletions d hd, fun x hx => (hadds x hx).1,
            fun x hx => ⟨(hadds x hx).2.trigger, (hadds x hx).2.mode⟩,
            Nat.le_of_not_lt hroom⟩, rfl⟩

/-- The check lets every well-formed plan pass. -/
theorem checkPlan_of {plan : SchedulerReconcilePlan} (h : PlanChecked env a plan) :
    (a.checkPlan env plan).1.isOk = true := by
  have hupdates := checkUpdates_iff.mpr ⟨⟨h.updateIds, forall_mem_map.mpr h.kept⟩, h.planned,
    rfl, rfl⟩
  -- what was named before is in the table, what is added is not
  have hadditions : (a.atTick (a.ticks + plan.updates.length)).checkAdditions env
      ((plan.updates.map (·.jobId)).reverse ++ plan.deletions.map Prod.fst) plan.additions =
        .ok () := by
    refine checkAdditions_iff.mpr ⟨⟨h.additionIds, forall_mem_map.mpr fun x hx hm => ?_⟩,
      fun x hx => ⟨h.additions x hx, (h.additionsChecked x hx).trigger,
        (h.additionsChecked x hx).mode⟩⟩
    have hfree := h.additions x hx
    rcases mem_append.mp hm with hm | hm
    · obtain ⟨update, hu, he⟩ := mem_map.mp (mem_reverse.mp hm)
      exact updatesPlanned_there h.planned update hu (by rw [he]; exact hfree)
    · obtain ⟨deletion, hd, he⟩ := mem_map.mp hm
      obtain ⟨job, hj, -⟩ := h.deletions deletion hd
      rw [he, hfree] at hj
      cases hj
  have hdeletions : (a.atTick (a.ticks + plan.updates.length)).checkDeletions plan.deletions =
      .ok () := (checkDeletions_iff _).mpr h.deletions
  unfold checkPlan
  rw [if_neg (not_not.mpr h.deletionIds), hupdates]
  dsimp only
  rw [hadditions, hdeletions]
  dsimp only
  split
  · exact absurd h.room (Nat.not_le.mpr ‹_›)
  · rfl

end Check

/-! ## 6. All or nothing -/

/-- What the application of a checked plan does. -/
structure ApplyPhase (env : Env) (a : SchedulerActor) (plan : SchedulerReconcilePlan)
    (r : Except SchedulerError Unit × SchedulerActor) : Prop where
  isOk : r.1.isOk = planPossible env a plan
  done : r.1.isOk = true → PlanApplied a plan r.2
  failed : r.1.isOk = false → (SameWork a r.2 ↔ firstFails env a plan = true)

section Apply

variable {env : Env} {a : SchedulerActor} {plan : SchedulerReconcilePlan}
  {r : Except SchedulerError Unit × SchedulerActor}

/-- A Job whose version went up is not as it was. -/
theorem not_sameWork_of_version {a' : SchedulerActor} {jobId : JobId} {job job' : JobEntry}
    (hj : a.jobs.get jobId = some job) (hj' : a'.jobs.get jobId = some job')
    (hv : job.version < job'.version) : ¬ SameWork a a' := by
  intro h
  rw [h.jobs, hj] at hj'
  cases hj'
  exact Nat.lt_irrefl _ hv

theorem firstFails_update {update : SchedulerReconcileUpdate}
    {rest : List SchedulerReconcileUpdate} (hus : plan.updates = update :: rest) :
    firstFails env a plan = !(planAt env a (applyFrom a plan) update).isOk := by
  unfold firstFails
  rw [hus]

theorem applyPlan_updates_failed
    (h : UpdatesPhase env a (a.atTick (applyFrom a plan)) plan.updates r)
    (hfalse : r.1.isOk = false) : ApplyPhase env a plan r := by
  have hno : updatesPossible env a (applyFrom a plan) plan.updates = false := h.isOk.symm.trans hfalse
  refine ⟨?_, fun hok => (by rw [hfalse] at hok; cases hok), fun _ => ?_⟩
  · rw [hfalse, planPossible, hno]
    rfl
  · cases hus : plan.updates with
    | nil => rw [hus] at hno; cases hno
    | cons update rest =>
      have hfirst := h.first update rest hus
      rw [firstFails_update hus]
      split at hfirst
      · rename_i hp
        obtain ⟨job, job', hj, hj', hv⟩ := hfirst
        rw [show (planAt env a (applyFrom a plan) update).isOk = true from hp]
        exact ⟨fun hsame => absurd hsame (not_sameWork_of_version hj hj' hv), nofun⟩
      · rename_i hp
        rw [show (planAt env a (applyFrom a plan) update).isOk = false from Bool.eq_false_iff.mpr hp]
        exact ⟨fun _ => rfl,
          fun _ => ⟨hfirst.jobs, hfirst.timers, hfirst.retryTimers, hfirst.ready⟩⟩

section

variable (hc : PlanChecked env a plan)
include hc

/-- The additions end the plan: updates and deletions went through. -/
theorem applyPlan_additions {a₁ a₂ : SchedulerActor} {u : Unit}
    (hr : forEach (applyUpdate env) plan.updates (a.atTick (applyFrom a plan)) = (.ok u, a₁))
    (hu : UpdatesPhase env a (a.atTick (applyFrom a plan)) plan.updates (.ok u, a₁)) {v : Unit}
    (hr' : forEach (applyDeletion env) plan.deletions a₁ = (.ok v, a₂))
    (hd : DeletionsPhase a₁ plan.deletions (.ok v, a₂))
    (ha : AdditionsPhase env a₂ plan.additions r) : ApplyPhase env a plan r := by
  obtain ⟨hticks, happlied⟩ := hu.done rfl
  have hpossible : updatesPossible env a (applyFrom a plan) plan.updates = true := hu.isOk.symm
  have hadd : ∀ addition ∈ plan.additions, a.jobs.get addition.jobId = none := hc.additions
  have hnotadd : ∀ id, a.jobs.get id ≠ none → id ∉ plan.additions.map (·.jobId) := by
    intro id hid hm
    obtain ⟨addition, hx, rfl⟩ := mem_map.mp hm
    exact hid (hadd addition hx)
  have hdelthere : ∀ deletion ∈ plan.deletions, a.jobs.get deletion.1 ≠ none := by
    intro deletion hm
    obtain ⟨job, hj, -⟩ := hc.deletions deletion hm
    rw [hj]
    exact some_ne_none _
  -- what an update left is not touched again
  have hkept : ∀ update ∈ plan.updates, r.2.jobs.get update.jobId = a₁.jobs.get update.jobId := by
    intro update hm
    rw [ha.other _ (hnotadd _ (updatesPlanned_there hc.planned update hm)), hd.other _ (hc.kept update hm)]
  have hgone : ∀ deletion ∈ plan.deletions, r.2.jobs.get deletion.1 = none := by
    intro deletion hm
    rw [ha.other _ (hnotadd _ (hdelthere deletion hm))]
    exact hd.gone deletion hm
  refine ⟨?_, fun hok => ⟨fun update hm => ?_, hgone, ha.done hok, fun id hid => ?_⟩, fun hfalse => ?_⟩
  · have hticks₂ : a₂.ticks = updatesEnd a (applyFrom a plan) plan.updates :=
      hd.ticks.trans hticks
    rw [ha.isOk, planPossible, hpossible, hticks₂]
    rfl
  · obtain ⟨job, job', hj, hj', hrest⟩ := happlied update hm
    exact ⟨job, job', hj, (hkept update hm).trans hj', hrest⟩
  · unfold SchedulerReconcilePlan.ids at hid
    rw [mem_append, mem_append, not_or, not_or] at hid
    rw [ha.other id hid.2, hd.other id hid.1.2, hu.other id hid.1.1]
    rfl
  · -- an earlier operation has changed a Job, unless there was none
    have hneither : ¬ SameWork a r.2 → firstFails env a plan = false →
        (SameWork a r.2 ↔ firstFails env a plan = true) := by
      intro hs hf
      rw [hf]
      exact ⟨fun h => absurd h hs, nofun⟩
    cases hus : plan.updates with
    | cons update =>
      have hm : update ∈ plan.updates := by rw [hus]; exact mem_cons_self
      obtain ⟨job, job', hj, hj', hv, -⟩ := happlied update hm
      refine hneither (not_sameWork_of_version hj ((hkept update hm).trans hj') hv) ?_
      rw [hus, updatesPossible, hj] at hpossible
      rw [firstFails_update hus, (Bool.and_eq_true_iff.mp (Bool.and_eq_true_iff.mp hpossible).1).1]
      rfl
    | nil =>
      cases hds : plan.deletions with
      | cons deletion =>
        have hm : deletion ∈ plan.deletions := by rw [hds]; exact mem_cons_self
        refine hneither (fun hs => hdelthere deletion hm ?_) ?_
        · rw [← hs.jobs]
          exact hgone deletion hm
        · unfold firstFails
          rw [hus, hds]
      | nil =>
        rw [hus] at hr
        cases hr
        rw [hds] at hr'
        cases hr'
        cases hxs : plan.additions with
        | nil =>
          have hok := ha.isOk
          rw [hxs, hfalse] at hok
          cases hok
        | cons addition rest =>
          have hfirst := ha.first addition rest hxs
          have hfails : firstFails env a plan =
              !(firstRunAt env.croner addition.trigger (env.clock (applyFrom a plan))).isOk := by
            unfold firstFails
            rw [hus, hds, hxs]
          split at hfirst
          · rename_i hworks
            refine hneither (fun hs => hfirst ?_) (hfails.trans (congrArg not hworks))
            rw [hs.jobs]
            exact hadd addition (by rw [hxs]; exact mem_cons_self)
          · rename_i hno
            exact ⟨fun _ => hfails.trans (congrArg not (Bool.eq_false_iff.mpr hno)),
              fun _ => ⟨hfirst.jobs, hfirst.timers, hfirst.retryTimers, hfirst.ready⟩⟩

/-- The updates, from the state the check leaves. -/
theorem updatesPhase_of : UpdatesPhase env a (a.atTick (applyFrom a plan)) plan.updates
      (forEach (applyUpdate env) plan.updates (a.atTick (applyFrom a plan))) :=
  forEach_applyUpdate plan.updates hc.updateIds rfl (fun _ _ => rfl) (updatesPlanned_there hc.planned)

/-- The deletions, after the updates. -/
theorem deletionsPhase_of (hu : UpdatesPhase env a (a.atTick (applyFrom a plan)) plan.updates r) :
    DeletionsPhase r.2 plan.deletions (forEach (applyDeletion env) plan.deletions r.2) := by
  refine forEach_applyDeletion plan.deletions hc.deletionIds fun deletion hm => ?_
  have hother : r.2.jobs.get deletion.1 = a.jobs.get deletion.1 := by
    refine hu.other deletion.1 fun hid => ?_
    obtain ⟨update, hx, he⟩ := mem_map.mp hid
    exact hc.kept update hx (by rw [he]; exact mem_map_of_mem hm)
  rw [hother]
  exact hc.deletions deletion hm

/-- The additions, after both: their ids are free, and there is room. -/
theorem additionsPhase_of {r' : Except SchedulerError Unit × SchedulerActor}
    (hu : UpdatesPhase env a (a.atTick (applyFrom a plan)) plan.updates r)
    (hd : DeletionsPhase r.2 plan.deletions r') :
    AdditionsPhase env r'.2 plan.additions (forEach (applyAddition env) plan.additions r'.2) := by
  have hconfig : r'.2.config = a.config := hd.config.trans hu.config
  refine forEach_applyAddition plan.additions hc.additionIds (fun x hx => ?_) (fun x hx => ?_) ?_
  · have hn := hc.additions x hx
    have hkept : r'.2.jobs.get x.jobId = r.2.jobs.get x.jobId := by
      refine hd.other x.jobId fun hm => ?_
      obtain ⟨deletion, hd', he⟩ := mem_map.mp hm
      obtain ⟨job, hj, -⟩ := hc.deletions deletion hd'
      rw [he, hn] at hj
      cases hj
    rw [hkept, hu.other x.jobId fun hm => ?_]
    · exact hn
    · obtain ⟨update, hu', he⟩ := mem_map.mp hm
      exact updatesPlanned_there hc.planned update hu' (by rw [he]; exact hn)
  · obtain ⟨ht, hm⟩ := hc.additionsChecked x hx
    exact ⟨by rw [hconfig]; exact ht, hm⟩
  · have hdomain : r.2.jobs.len = a.jobs.len := len_congr hu.domain
    have hlen := hd.len
    have hroom := hc.room
    rw [hconfig]
    omega

/-- **The application of a checked plan**: it goes through exactly if every operation is possible,
    and a failure leaves everything as it was exactly if it is the first operation that fails. -/
theorem applyPlan_phase :
    ApplyPhase env a plan ((a.atTick (applyFrom a plan)).applyPlan env plan) := by
  have hu := updatesPhase_of hc
  unfold applyPlan
  split
  · rename_i e a₁ hr
    rw [hr] at hu
    exact applyPlan_updates_failed hu rfl
  · rename_i u a₁ hr
    rw [hr] at hu
    have hd := deletionsPhase_of hc hu
    split
    · rename_i hr'
      have hok := hd.isOk
      rw [hr'] at hok
      cases hok
    · rename_i v a₂ hr'
      rw [hr'] at hd
      exact applyPlan_additions hc hr hu hr' hd (additionsPhase_of hc hu hd)

end

end Apply

section Outcome

variable {env : Env} {a : SchedulerActor} {plan : SchedulerReconcilePlan}

/-- A malformed plan only reads the clock. -/
theorem reconcileJobs_refused (h : ¬ PlanChecked env a plan) :
    ∃ e n, a.reconcileJobs env plan = (.error e, a.atTick n) := by
  obtain ⟨n, hn⟩ := checkPlan_ticks env a plan
  cases hcheck : a.checkPlan env plan with
  | mk result =>
    rw [hcheck] at hn
    cases result with
    | error e =>
      refine ⟨e, n, ?_⟩
      unfold reconcileJobs
      rw [hcheck]
      exact congrArg (Prod.mk (Except.error e)) hn
    | ok => exact absurd (checkPlan_ok (by rw [hcheck]; rfl)).1 h

/-- What is left of a checked plan, whether or not it came to its end. -/
theorem reconcileJobs_checked (hc : PlanChecked env a plan)
    {r : Except SchedulerError Unit × SchedulerActor}
    (hr : (a.atTick (applyFrom a plan)).applyPlan env plan = r) :
    a.reconcileJobs env plan = (r.1.map fun _ => plan.targetIds.filterMap fun jobId =>
      (r.2.jobs.get jobId).map (r.2.snapshot jobId), r.2) := by
  unfold reconcileJobs
  rw [(checkPlan_ok (checkPlan_of hc)).2]
  dsimp only
  rw [hr]
  obtain ⟨result, a'⟩ := r
  cases result <;> rfl

/-- A plan that is checked and possible is applied. -/
theorem reconcileJobs_done (hc : PlanChecked env a plan) (hp : planPossible env a plan = true) :
    ∃ a', a.reconcileJobs env plan =
        (.ok (plan.targetIds.filterMap fun jobId => (a'.jobs.get jobId).map (a'.snapshot jobId)), a') ∧
      PlanApplied a plan a' := by
  have happly := applyPlan_phase hc
  generalize hr : (a.atTick (applyFrom a plan)).applyPlan env plan = r at happly
  obtain ⟨result, a'⟩ := r
  have hok := happly.isOk.trans hp
  cases result with
  | error => cases hok
  | ok => exact ⟨a', reconcileJobs_checked hc hr, happly.done rfl⟩

/-- A checked plan that is not possible fails on the way. -/
theorem reconcileJobs_failed (hc : PlanChecked env a plan) (hp : planPossible env a plan = false) :
    ∃ e a', a.reconcileJobs env plan = (.error e, a') ∧
      (SameWork a a' ↔ firstFails env a plan = true) := by
  have happly := applyPlan_phase hc
  generalize hr : (a.atTick (applyFrom a plan)).applyPlan env plan = r at happly
  obtain ⟨result, a'⟩ := r
  have hok := happly.isOk.trans hp
  cases result with
  | error e => exact ⟨e, a', reconcileJobs_checked hc hr, happly.failed rfl⟩
  | ok => cases hok

end Outcome

/-- **All or nothing, exactly**: a plan is applied as a whole or not at all if and only if the check
    refuses it, or every operation it asks for is possible when its turn comes, or the very first
    one fails. -/
theorem reconcile_all_or_nothing_iff (env : Env) (a : SchedulerActor)
    (plan : SchedulerReconcilePlan) : AllOrNothing env a plan ↔ ReconcileSafe env a plan := by
  unfold AllOrNothing ReconcileSafe
  by_cases hc : PlanChecked env a plan
  · cases hp : planPossible env a plan with
    | true =>
      obtain ⟨a', hr, happlied⟩ := reconcileJobs_done hc hp
      rw [hr]
      exact ⟨fun _ => .inr (.inl rfl), fun _ => happlied⟩
    | false =>
      obtain ⟨e, a', hr, hsame⟩ := reconcileJobs_failed hc hp
      rw [hr]
      dsimp only
      rw [hsame]
      simp [hc]
  · obtain ⟨e, n, hr⟩ := reconcileJobs_refused hc
    rw [hr]
    exact ⟨fun _ => .inl hc, fun _ => ⟨rfl, rfl, rfl, rfl⟩⟩

section Swap

/-- Every expression parses, and none has an occurrence left. -/
def Env.noOccurrence : Env :=
  { Env.still with croner := ⟨fun _ => .ok (), fun _ _ _ => .error "no future occurrence"⟩ }

def inventory : TaskBinding := ⟨⟨"inventory", .action, "packages"⟩, .cooperative⟩

/-- One Job, installed and enabled. -/
def oneJob : SchedulerActor :=
  after .noOccurrence { globalConcurrency := Nat.toPNat' 1 }
    [.command (.add (some 1) 1 true ⟨.interval (3600 * 10 ^ 9) none, .fireOnce, none⟩ inventory {})]

/-- Replace it by one for the 30th of February. -/
def swapPlan : SchedulerReconcilePlan where
  deletions := [(1, 1)]
  additions := [⟨2, true, ⟨.cron "0 0 30 2 *" "UTC", .fireOnce, none⟩, inventory, {}⟩]

/-- **Half a plan.** The expression parses, so the check lets the plan pass; the old Job is deleted,
    and only then is it found that the new one has no first run. -/
theorem reconcile_deletes_then_fails :
    (oneJob.reconcileJobs .noOccurrence swapPlan).1.isOk = false ∧
      (oneJob.jobs.get 1).isSome = true ∧
      ((oneJob.reconcileJobs .noOccurrence swapPlan).2.jobs.get 1).isSome = false ∧
      ¬ AllOrNothing .noOccurrence oneJob swapPlan := by
  have herr : (oneJob.reconcileJobs .noOccurrence swapPlan).1.isOk = false := by decide +kernel
  have hbefore : (oneJob.jobs.get 1).isSome = true := by decide +kernel
  have hafter : ((oneJob.reconcileJobs .noOccurrence swapPlan).2.jobs.get 1).isSome = false := by
    decide +kernel
  refine ⟨herr, hbefore, hafter, fun h => ?_⟩
  unfold AllOrNothing at h
  generalize oneJob.reconcileJobs .noOccurrence swapPlan = r at h herr hafter
  obtain ⟨result, a'⟩ := r
  cases result with
  | error =>
    rw [h.jobs, hbefore] at hafter
    cases hafter
  | ok => cases herr

end Swap

end Smalux.Scheduler
