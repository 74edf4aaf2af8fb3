/-
  Subject:   Applying a definition to an existing Job, and installing it fresh.

  A definition that changes is turned into a patch meant to replace everything (`fullPatch`). Two
  fields escape: a patch has no way to say "the default of this trigger", so where the definition
  leaves coalescing or capacity open, the Job keeps what it had.

  * **`update_equals_install_iff`** -- the Jobs and definitions on which the paths agree, exactly.
-/
import Smalux.Remote.Compiler
import Smalux.Scheduler.Reconcile

namespace Smalux.Remote

open Lib Scheduler SchedulerActor

/-! ## 1. The patch -/

/-- Set the value, or go back to the scheduler's default. -/
def setOrInherit {α : Type} : Option α → PatchValue α
  | some value => .set value
  | none => .inherit_

/-- The whole definition as a patch. -/
def fullPatch (trigger : Trigger) (task : TaskBinding) (options : JobOptions) : JobPatch where
  task := some task
  trigger := some trigger
  concurrency := setOrInherit options.concurrency
  maxPending := setOrInherit options.maxPending
  priority := some options.priority
  -- `None` keeps the Job's policy: unlike the two fields above there is nothing to inherit
  coalescing := options.coalescing
  capacity := options.capacity
  retry := some options.retry
  failure := some options.failure
  reschedule := .recalculate

/-- The patch of an upsert that finds its Job. -/
abbrev CompiledJob.patch (D : CompiledJob) : JobPatch := fullPatch D.trigger D.task D.options

/-- The coalescing and capacity policies the Job has after the patch. -/
def keptPolicies (job : JobEntry) (options : JobOptions) : TriggerCoalescing × CapacityPolicy :=
  (options.coalescing.getD job.coalescing, options.capacity.getD job.capacity)

theorem apply_setOrInherit {α : Type} (old new : Option α) : (setOrInherit new).apply old = new := by
  cases new <;> rfl

/-- The options the patch is checked with. -/
theorem patchedJobOptions_fullPatch (job : JobEntry) (trigger : Trigger) (task : TaskBinding)
    (options : JobOptions) :
    patchedJobOptions job (fullPatch trigger task options) =
      { options with
        coalescing := some (keptPolicies job options).1
        capacity := some (keptPolicies job options).2 } := by
  unfold patchedJobOptions fullPatch
  simp only [apply_setOrInherit, Option.getD_some]
  rfl

/-- The settings the patch leaves. -/
theorem patched_fullPatch (job : JobEntry) (trigger : Trigger) (task : TaskBinding)
    (options : JobOptions) :
    job.settings.patched (fullPatch trigger task options) =
      { JobSettings.fresh trigger task options with
        coalescing := (keptPolicies job options).1
        capacity := (keptPolicies job options).2 } := by
  unfold JobSettings.patched fullPatch
  simp only [apply_setOrInherit, Option.getD_some, Option.map_some]
  rfl

/-! ## 2. The two paths -/

/-- The table without the Job. -/
def without (a : SchedulerActor) (jobId : JobId) : SchedulerActor :=
  { a with jobs := a.jobs.remove jobId }

/-- Everything the checks of a new Job ask of the definition itself, at the current reading of the
    clock. -/
structure Installable (env : Env) (a : SchedulerActor) (D : CompiledJob) : Prop where
  trigger : validateTrigger env.croner D.trigger D.options a.config = .ok ()
  mode : validateTaskCancellationMode D.trigger D.task.cancellationMode = .ok ()
  first : (firstRunAt env.croner D.trigger (a.now env)).isOk = true

/-- There is room for one more Job once this one is gone. -/
def HasRoom (a : SchedulerActor) (jobId : JobId) : Prop :=
  (without a jobId).jobs.len < a.config.maxJobs

/-- The old policies are what the definition would get as a new Job. -/
def PoliciesAgree (job : JobEntry) (D : CompiledJob) : Prop :=
  keptPolicies job D.options = effectiveQueuePolicies D.trigger D.options

/-- Catch-up of bounded length: the one misfire policy whose check looks at the queue policies. -/
def Trigger.catchesUp (trigger : Trigger) : Bool :=
  match trigger.misfire with
  | .catchUp _ => true
  | _ => false

/-- **The update path and the install path agree**: both accept the definition or neither does, and
    if both do, the Job has the same settings. -/
def UpdateEqualsInstall (env : Env) (a : SchedulerActor) (jobId : JobId) (job : JobEntry)
    (D : CompiledJob) : Prop :=
  let updated := a.updateJob env jobId job.version D.patch
  let installed := (without a jobId).addJob env (some jobId) 1 D.enabled D.trigger D.task D.options
  updated.1.isOk = installed.1.isOk ∧
    (updated.1.isOk = true →
      (updated.2.jobs.get jobId).map JobEntry.settings =
        (installed.2.jobs.get jobId).map JobEntry.settings)

/-- Where the paths agree. -/
def PatchFaithful (env : Env) (a : SchedulerActor) (jobId : JobId) (job : JobEntry)
    (D : CompiledJob) : Prop :=
  ¬ Installable env a D ∨
    (HasRoom a jobId ∧ job.version < u64Max ∧ PoliciesAgree job D) ∨
    (¬ HasRoom a jobId ∧
      (¬ job.version < u64Max ∨ Trigger.catchesUp D.trigger = true ∧ ¬ PoliciesAgree job D))

section Paths

variable {env : Env} {a : SchedulerActor} {jobId : JobId} {job : JobEntry} {D : CompiledJob}

/-- A new Job needs room and an installable definition. -/
theorem addAccepted_without_iff (env : Env) (a : SchedulerActor) (jobId : JobId) (D : CompiledJob) :
    (without a jobId).addAccepted env (some jobId) D.trigger D.task D.options = true ↔
      HasRoom a jobId ∧ Installable env a D := by
  have hnone : (without a jobId).jobs.contains jobId = false := by
    refine Table.contains_eq_false_iff.mpr ?_
    show (a.jobs.remove jobId).get jobId = none
    rw [Table.get_remove, if_pos rfl]
  have hok : ∀ {ε : Type} {x : Except ε Unit}, x.isOk = true ↔ x = .ok () := by
    intro ε x
    cases x <;> simp [Except.isOk, Except.toBool]
  unfold addAccepted addTarget
  rw [Option.getD_some, hnone]
  simp only [Bool.and_eq_true, decide_eq_true_eq, hok, Bool.not_false, and_true]
  constructor
  · rintro ⟨⟨⟨hl, ht⟩, hm⟩, hf⟩
    exact ⟨hl, ht, hm, hf⟩
  · rintro ⟨hl, ht, hm, hf⟩
    exact ⟨⟨⟨hl, ht⟩, hm⟩, hf⟩

/-- The update needs what a new Job needs, except that the old policies stand in for the open ones,
    and a version. -/
theorem updateAccepted_iff (hj : a.jobs.get jobId = some job) :
    (a.planJobUpdate env jobId job.version D.patch).isOk = true ↔
      validateTrigger env.croner D.trigger (patchedJobOptions job D.patch) a.config = .ok () ∧
        validateTaskCancellationMode D.trigger D.task.cancellationMode = .ok () ∧
        job.version < u64Max ∧ (firstRunAt env.croner D.trigger (a.now env)).isOk = true := by
  have hcheck : a.checkVersion jobId job.version = .ok job := by simp [checkVersion, hj]
  have hmode : D.patch.effectiveReschedule = .recalculate := by
    simp [JobPatch.effectiveReschedule, fullPatch]
  have hsucc := checkedSucc_isSome job.version
  unfold planJobUpdate
  rw [hcheck, hmode]
  dsimp only [CompiledJob.patch, fullPatch, Option.getD, Option.map]
  generalize validateTrigger env.croner D.trigger _ a.config = valid
  cases valid with
  | error => simp [Except.isOk, Except.toBool]
  | ok u =>
    cases validateTaskCancellationMode D.trigger D.task.cancellationMode with
    | error => simp [Except.isOk, Except.toBool]
    | ok =>
      cases hv : checkedSucc job.version with
      | none =>
        rw [hv] at hsucc
        have hmax : ¬ job.version < u64Max := by simpa using hsucc
        simp [Except.isOk, Except.toBool, hmax]
      | some version =>
        rw [hv] at hsucc
        have hlt : job.version < u64Max := by simpa using hsucc
        dsimp only [planNextRun]
        cases firstRunAt env.croner D.trigger (a.now env) <;>
          simp [Except.isOk, Except.toBool, Except.map, hlt]

/-- The misfire check reads the options through the queue policies. -/
theorem validateMisfire_of_not_catchesUp {trigger : Trigger} (options : JobOptions)
    (config : SchedulerConfig) (h : Trigger.catchesUp trigger = false) :
    validateMisfire trigger options config = .ok () := by
  unfold Trigger.catchesUp at h
  unfold validateMisfire
  cases hm : trigger.misfire with
  | catchUp => rw [hm] at h; cases h
  | skip => rfl
  | fireOnce => rfl

/-- Where lossless policies came from the old Job, the defaults of a catch-up trigger are the
    same. -/
theorem agree_of_lossless {maxRuns : ℕ+} (hm : D.trigger.misfire = .catchUp maxRuns)
    (h : keptPolicies job D.options = (.keepAll, .backpressure)) : PoliciesAgree job D := by
  have hlossless : D.trigger.lossless = true := by
    unfold Trigger.lossless
    rw [hm]
    cases D.trigger.schedule <;> rfl
  unfold PoliciesAgree
  rw [h]
  obtain ⟨hc, hk⟩ := Prod.mk.inj h
  unfold effectiveQueuePolicies
  rw [hlossless]
  refine Prod.ext ?_ ?_
  · cases ho : D.options.coalescing with
    | none => rfl
    | some => rw [ho] at hc; exact hc.symm
  · cases ho : D.options.capacity with
    | none => rfl
    | some => rw [ho] at hk; exact hk.symm

/-- The misfire check is the only one that sees the difference. -/
theorem validateTrigger_patched_iff :
    validateTrigger env.croner D.trigger (patchedJobOptions job D.patch) a.config = .ok () ↔
      validateTrigger env.croner D.trigger D.options a.config = .ok () ∧
        (Trigger.catchesUp D.trigger = true → PoliciesAgree job D) := by
  rw [patchedJobOptions_fullPatch]
  constructor
  · intro h
    obtain ⟨hp, hs, hf, hr⟩ := validateTrigger_ok env.croner h
    have hagree : Trigger.catchesUp D.trigger = true → PoliciesAgree job D := by
      intro hc
      unfold Trigger.catchesUp at hc
      split at hc
      · rename_i maxRuns hm
        exact agree_of_lossless hm (catchUp_lossless hf hm)
      · cases hc
    refine ⟨validateTrigger_of env.croner hp hs ?_ hr, hagree⟩
    cases hc : Trigger.catchesUp D.trigger with
    | true => rw [← hf]; exact validateMisfire_congr (hagree hc).symm
    | false => exact validateMisfire_of_not_catchesUp D.options a.config hc
  · rintro ⟨h, hagree⟩
    obtain ⟨hp, hs, hf, hr⟩ := validateTrigger_ok env.croner h
    refine validateTrigger_of env.croner hp hs ?_ hr
    cases hc : Trigger.catchesUp D.trigger with
    | true => rw [← hf]; exact validateMisfire_congr (hagree hc)
    | false => exact validateMisfire_of_not_catchesUp _ a.config hc

/-- The settings on both sides, once both accept. -/
theorem settings_eq_iff :
    job.settings.patched D.patch = .fresh D.trigger D.task D.options ↔ PoliciesAgree job D := by
  rw [patched_fullPatch]
  constructor
  · intro h
    exact Prod.ext (congrArg JobSettings.coalescing h) (congrArg JobSettings.capacity h)
  · intro h
    rw [h]
    rfl

end Paths

/-! ## 3. When they agree -/

section Agreement

variable (env : Env) {a : SchedulerActor} {jobId : JobId} {job : JobEntry}

/-- The update is accepted if a new Job would pass the checks, the version is not the last one, and
    a catch-up trigger finds lossless policies. -/
theorem planned_iff (hj : a.jobs.get jobId = some job) (D : CompiledJob) :
    (a.planJobUpdate env jobId job.version D.patch).isOk = true ↔
      Installable env a D ∧ job.version < u64Max ∧
        (Trigger.catchesUp D.trigger = true → PoliciesAgree job D) := by
  rw [updateAccepted_iff hj, validateTrigger_patched_iff]
  constructor
  · rintro ⟨⟨ht, hagree⟩, hm, hv, hf⟩
    exact ⟨⟨ht, hm, hf⟩, hv, hagree⟩
  · rintro ⟨⟨ht, hm, hf⟩, hv, hagree⟩
    exact ⟨⟨ht, hagree⟩, hm, hv, hf⟩

/-- The update, reduced to its acceptance and the settings it leaves. -/
theorem update_outcome (hj : a.jobs.get jobId = some job) (D : CompiledJob) :
    let r := a.updateJob env jobId job.version D.patch
    r.1.isOk = (a.planJobUpdate env jobId job.version D.patch).isOk ∧
      (r.1.isOk = true → (r.2.jobs.get jobId).map JobEntry.settings =
        some (job.settings.patched D.patch)) := by
  intro r
  show (a.updateJob env jobId job.version D.patch).1.isOk = _ ∧
    ((a.updateJob env jobId job.version D.patch).1.isOk = true →
      ((a.updateJob env jobId job.version D.patch).2.jobs.get jobId).map JobEntry.settings = _)
  cases hp : a.planJobUpdate env jobId job.version D.patch with
  | error =>
    rw [updateJob_error env hp]
    exact ⟨rfl, nofun⟩
  | ok plan =>
    rw [updateJob_commit env hp hj]
    refine ⟨rfl, fun _ => ?_⟩
    have hget := get_commitUpdate env (a := a.tick) D.patch plan hj jobId
    rw [if_pos rfl] at hget
    rw [hget]
    exact congrArg some (settings_updatedEntry _ _ _ _ _)

/-- The installation, likewise. -/
theorem install_outcome (a : SchedulerActor) (jobId : JobId) (D : CompiledJob) :
    let r := (without a jobId).addJob env (some jobId) 1 D.enabled D.trigger D.task D.options
    r.1.isOk = (without a jobId).addAccepted env (some jobId) D.trigger D.task D.options ∧
      (r.1.isOk = true → (r.2.jobs.get jobId).map JobEntry.settings =
        some (.fresh D.trigger D.task D.options)) := by
  have h := addJob_some env (without a jobId) jobId 1 D.enabled D.trigger D.task D.options
  split at h
  · rename_i hacc
    obtain ⟨first, h⟩ := h
    rw [h, hacc]
    refine ⟨rfl, fun _ => ?_⟩
    rw [get_installJob, if_pos rfl]
    cases D.enabled <;> rfl
  · rename_i hacc
    obtain ⟨e, b, h, -⟩ := h
    rw [h, Bool.eq_false_iff.mpr hacc]
    exact ⟨rfl, nofun⟩

/-- **Exactly when updating a Job is as good as installing it anew**: the definition is refused as
    such, or there is room and a version and the policies it leaves open are the old ones; in a
    table that is over its limit, where no new Job would be taken, exactly if the update is refused
    as well. -/
theorem update_equals_install_iff (env : Env) (a : SchedulerActor) (jobId : JobId) (job : JobEntry)
    (D : CompiledJob) (hj : a.jobs.get jobId = some job) :
    UpdateEqualsInstall env a jobId job D ↔ PatchFaithful env a jobId job D := by
  obtain ⟨hu, husettings⟩ := update_outcome env hj D
  obtain ⟨hi, hisettings⟩ := install_outcome env a jobId D
  have hplanned := planned_iff env hj D
  have hadded := addAccepted_without_iff env a jobId D
  rw [← hu] at hplanned
  rw [← hi] at hadded
  -- both outcomes are now propositions about the definition, the version and the room
  have hiff : UpdateEqualsInstall env a jobId job D ↔
      ((Installable env a D ∧ job.version < u64Max ∧
          (Trigger.catchesUp D.trigger = true → PoliciesAgree job D)) ↔
        (HasRoom a jobId ∧ Installable env a D)) ∧
      (Installable env a D ∧ job.version < u64Max ∧
        (Trigger.catchesUp D.trigger = true → PoliciesAgree job D) → PoliciesAgree job D) := by
    rw [← hplanned, ← hadded]
    constructor
    · rintro ⟨hsame, hsettings⟩
      refine ⟨by rw [hsame], fun hok => ?_⟩
      have h := hsettings hok
      rw [husettings hok, hisettings (hsame ▸ hok)] at h
      exact settings_eq_iff.mp (Option.some.inj h)
    · rintro ⟨hsame, hsettings⟩
      refine ⟨Bool.eq_iff_iff.mpr hsame, fun hok => ?_⟩
      rw [husettings hok, hisettings (hsame.mp hok)]
      exact congrArg some (settings_eq_iff.mpr (hsettings hok))
  rw [hiff]
  unfold PatchFaithful
  by_cases hinst : Installable env a D <;> by_cases hroom : HasRoom a jobId <;>
    by_cases hv : job.version < u64Max <;> by_cases hp : PoliciesAgree job D <;>
    cases hc : Trigger.catchesUp D.trigger <;> simp [hinst, hroom, hv, hp]

end Agreement

section Polling

/-- Every configuration and time zone is accepted. -/
def TaskFactory.lenient : TaskFactory where
  parseTimezone := .ok
  checkConfig := fun _ _ => .ok ()
  validateTaskConfig := fun _ => .ok ()

/-- The CPU load once a minute, with the given answer to missed minutes. -/
def pollingDefinition (revision : Nat) (misfire : Proto.MisfirePolicy) : Proto.JobDefinition where
  jobId := Uuid.asBytes 1
  revision := revision
  enabled := true
  trigger := some ⟨none, some misfire, some (.interval ⟨some ⟨60, 0⟩, none⟩)⟩
  options := none
  task := some ⟨some (.builtin .cpu [])⟩

/-- What such a definition compiles to. -/
def pollingJob (revision : Nat) (misfire : Proto.MisfirePolicy) (policy : MisfirePolicy) :
    CompiledJob where
  definition := pollingDefinition revision misfire
  id := 1
  revision := revision
  enabled := true
  trigger := ⟨.interval (60 * 10 ^ 9) none, policy, none⟩
  options := {}
  task := TaskFactory.bind "smalux.collect.cpu.v1" .nonCancellable "" revision
  taskKind := "smalux.collect.cpu.v1"
  plugin := none

/-- The Agent that polls and skips what it missed. -/
def pollingAgent : SchedulerActor :=
  let D := pollingJob 1 ⟨1, 0⟩ .skip
  after .still { globalConcurrency := Nat.toPNat' 4 }
    [.command (.add (some 1) 1 D.enabled D.trigger D.task D.options)]

/-- Its Job. -/
def pollingEntry : JobEntry :=
  let D := pollingJob 1 ⟨1, 0⟩ .skip
  scheduleEntry 0 0 (newEntry 1 D.enabled D.trigger D.task D.options 0)

theorem update_equals_install_polling :
    pollingAgent.jobs.get 1 = some pollingEntry ∧
      UpdateEqualsInstall .still pollingAgent 1 pollingEntry (pollingJob 2 ⟨2, 0⟩ .fireOnce) := by
  have hget : pollingAgent.jobs.get 1 = some pollingEntry := by decide +kernel
  refine ⟨hget, (update_equals_install_iff .still pollingAgent 1 pollingEntry _ hget).mpr ?_⟩
  exact .inr (.inl ⟨by unfold HasRoom; decide +kernel, by decide +kernel, by
    unfold PoliciesAgree; decide +kernel⟩)

/-- **The Job keeps its old policies.** From now on the Agent is to catch up on up to five missed
    minutes. As a new Job the definition is fine: catch-up makes the queue lossless. The Job that is
    there keeps the policies of its old trigger, and those do not go with catch-up. -/
theorem update_keeps_old_policies :
    compileJob .lenient (pollingDefinition 2 ⟨3, 5⟩) = .ok (pollingJob 2 ⟨3, 5⟩ (.catchUp 5)) ∧
      pollingAgent.jobs.get 1 = some pollingEntry ∧
      ¬ UpdateEqualsInstall .still pollingAgent 1 pollingEntry (pollingJob 2 ⟨3, 5⟩ (.catchUp 5)) := by
  refine ⟨by decide +kernel, by decide +kernel, fun h => ?_⟩
  have hinstall : ((without pollingAgent 1).addJob .still (some 1) 1 true
      (pollingJob 2 ⟨3, 5⟩ (.catchUp 5)).trigger (pollingJob 2 ⟨3, 5⟩ (.catchUp 5)).task
      (pollingJob 2 ⟨3, 5⟩ (.catchUp 5)).options).1.isOk = true := by decide +kernel
  have hsame := h.1
  exact Bool.false_ne_true (hsame.trans hinstall)

end Polling

end Smalux.Remote
