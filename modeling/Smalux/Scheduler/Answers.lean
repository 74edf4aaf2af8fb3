/-
  Subject:   What a command answers, and what it does to the cores of the Jobs.

  For each command on a single Job: the state in which it succeeds, what it answers then, and that
  an error leaves every core as it was.
-/
import Smalux.Scheduler.Calm

namespace Smalux.Scheduler

open Lib SchedulerActor List Option

variable {a a' : SchedulerActor} {id : JobId} {a'' : SchedulerActor}

/-! ## 1. Changes of cores -/

/-- Every Job has the core it had. -/
def SameCores (a a' : SchedulerActor) : Prop := ∀ id, a'.coreOf id = a.coreOf id

/-- The Job at `id` now has this core, or is gone; every other has the one it had. -/
structure CoreSet (a : SchedulerActor) (id : JobId) (core : Option JobCore) (a' : SchedulerActor) :
    Prop where
  here : a'.coreOf id = core
  others : ∀ id', id' ≠ id → a'.coreOf id' = a.coreOf id'

theorem SameCores.of_jobs (h : a'.jobs = a.jobs) : SameCores a a' := by
  intro id
  unfold coreOf
  rw [h]

theorem SameCores.trans (h : SameCores a a') (h' : SameCores a' a'') :
    SameCores a a'' := fun id => (h' id).trans (h id)

theorem CoreSet.same_trans {core : Option JobCore} (h : CoreSet a id core a')
    (h' : SameCores a' a'') : CoreSet a id core a'' :=
  ⟨(h' id).trans h.here, fun id' hid => (h' id').trans (h.others id' hid)⟩

theorem CoreSet.of_only {entry : Option JobEntry} (h : OnlyJob id a a')
    (hj : a'.jobs.get id = entry) : CoreSet a id (entry.map JobEntry.core) a' :=
  ⟨congrArg (Option.map JobEntry.core) hj,
    fun id' hid => congrArg (Option.map JobEntry.core) (h.other id' hid)⟩

/-! ## 2. The commands -/

/-- The Job is there, at this version. -/
def AtVersion (a : SchedulerActor) (id : JobId) (version : Nat) (core : JobCore) : Prop :=
  a.coreOf id = some core ∧ core.version = version

theorem AtVersion.entry {version : Nat} {core : JobCore} (h : AtVersion a id version core) :
    ∃ job, a.jobs.get id = some job ∧ job.core = core ∧ job.version = version := by
  obtain ⟨job, hj, hc⟩ := coreOf_eq_some_iff.mp h.1
  exact ⟨job, hj, hc, by rw [← h.2, ← hc]; rfl⟩

theorem AtVersion.unique {version version' : Nat} {core core' : JobCore}
    (h : AtVersion a id version core) (h' : AtVersion a id version' core') :
    core' = core := Option.some.inj (h'.1.symm.trans h.1)

/-- The snapshot is that of the Job as it now is. -/
def SnapshotOf (a : SchedulerActor) (id : JobId) (snapshot : JobSnapshot) : Prop :=
  ∃ job, a.jobs.get id = some job ∧ snapshot = a.snapshot id job

/-- What a snapshot tells of the core. -/
theorem SnapshotOf.core {snapshot : JobSnapshot} {core : JobCore} (h : SnapshotOf a id snapshot)
    (hc : a.coreOf id = some core) :
    snapshot.id = id ∧ snapshot.version = core.version ∧ snapshot.state = core.state := by
  obtain ⟨job, hj, rfl⟩ := h
  obtain ⟨job', hj', rfl⟩ := coreOf_eq_some_iff.mp hc
  rw [hj] at hj'
  cases hj'
  exact ⟨rfl, rfl, rfl⟩

/-- A plan that is carried out leaves every Job it asks for. -/
theorem PlanApplied.there {plan : SchedulerReconcilePlan} (h : PlanApplied a plan a')
    (hid : id ∈ plan.targetIds) : (a'.coreOf id).isSome = true := by
  rw [coreOf, isSome_map]
  rcases mem_append.mp hid with hid | hid
  · obtain ⟨update, hu, rfl⟩ := mem_map.mp hid
    obtain ⟨-, job', -, hj', -⟩ := h.updates update hu
    rw [hj']
    rfl
  · obtain ⟨addition, hx, rfl⟩ := mem_map.mp hid
    obtain ⟨job', hj', -⟩ := h.additions addition hx
    rw [hj']
    rfl

section Commands

variable (env : Env) (a : SchedulerActor) (id : JobId) (version : Nat)

theorem atVersion_self {a : SchedulerActor} {id : JobId} {job : JobEntry}
    (hj : a.jobs.get id = some job) : AtVersion a id job.version job.core :=
  ⟨coreOf_of_get hj, rfl⟩

theorem lt_of_checkedSucc {n m : Nat} (h : checkedSucc n = some m) : n < u64Max := by
  have hsome := checkedSucc_isSome n
  rw [h] at hsome
  exact of_decide_eq_true hsome.symm

/-- A Job can be disabled at the version it has, unless that is the last one. -/
def Disableable : Prop := (∃ core, AtVersion a id version core) ∧ version < u64Max

instance : Decidable (Disableable a id version) :=
  decidable_of_iff ((a.coreOf id).map JobCore.version = some version ∧ version < u64Max) <|
    and_congr_left' map_eq_some_iff

/-- **Disable.** -/
theorem disableJob_answer (reason : String) :
    (¬ Disableable a id version ∧ (∃ e, (a.disableJob env id version reason).1 = .error e) ∧
        SameCores a (a.disableJob env id version reason).2) ∨
      ∃ core snapshot, AtVersion a id version core ∧ version < u64Max ∧
        (a.disableJob env id version reason).1 = .ok snapshot ∧
        SnapshotOf (a.disableJob env id version reason).2 id snapshot ∧
        CoreSet a id (some ⟨core.settings, .disabled reason, version + 1⟩)
          (a.disableJob env id version reason).2 := by
  have hres := disableJob_result env a id version reason
  generalize a.disableJob env id version reason = r at hres
  cases hres with
  | refused e h =>
    refine .inl ⟨fun ⟨⟨core, hat⟩, hl⟩ => ?_, ⟨e, rfl⟩, fun _ => rfl⟩
    obtain ⟨job, hj, -, hv⟩ := hat.entry
    exact h job hj hv hl
  | disabled job hj hv hl =>
    subst hv
    have hget := get_commitDisable env a id job (job.version + 1) reason id
    rw [if_pos rfl, hj, map_some] at hget
    exact .inr ⟨job.core, _, atVersion_self hj, hl, rfl, ⟨_, hget, rfl⟩,
      .of_only (.commitDisable a job _ reason) hget⟩

/-- A Job that is off can be enabled at the version it has, if a version is left and the trigger has
    a first run now. -/
def Enableable (core : JobCore) : Prop :=
  version < u64Max ∧ (firstRunAt env.croner core.settings.trigger (a.now env)).isOk = true

/-- **Enable.** -/
theorem enableJob_answer : ((∃ e, (a.enableJob env id version).1 = .error e) ∧
        SameCores a (a.enableJob env id version).2 ∧ ∀ core, AtVersion a id version core →
          core.state ≠ .enabled ∧ ¬ Enableable env a version core) ∨
      ∃ core snapshot, AtVersion a id version core ∧ (a.enableJob env id version).1 = .ok snapshot ∧
        SnapshotOf (a.enableJob env id version).2 id snapshot ∧
        ((core.state = .enabled ∧ SameCores a (a.enableJob env id version).2) ∨
          (core.state ≠ .enabled ∧ Enableable env a version core ∧
            CoreSet a id (some ⟨core.settings, .enabled, version + 1⟩)
              (a.enableJob env id version).2)) := by
  have hres := enableJob_result env a id version
  generalize a.enableJob env id version = r at hres
  cases hres with
  | refused e h =>
    refine .inl ⟨⟨e, rfl⟩, fun _ => rfl, fun core hat => ?_⟩
    obtain ⟨job, hj, -, hv⟩ := hat.entry
    exact absurd hv (h job hj)
  | already job hj hv hs =>
    subst hv
    exact .inr ⟨job.core, _, atVersion_self hj, rfl, ⟨job, hj, rfl⟩, .inl ⟨hs, fun _ => rfl⟩⟩
  | dropped job e hj hv hs h =>
    refine .inl ⟨⟨e, rfl⟩, .of_jobs rfl, fun core hat => ?_⟩
    rw [(atVersion_self hj).unique hat]
    exact ⟨hs, h⟩
  | enabled job entry next hj hv hs hl hf he hget =>
    subst hv he
    have honly : OnlyJob id a (a.dropWork id).tick := .of_jobs rfl rfl
    exact .inr ⟨job.core, _, atVersion_self hj, rfl, ⟨_, hget, rfl⟩, .inr ⟨hs,
      ⟨hl, by rw [JobEntry.core, show job.settings.trigger = job.trigger from rfl, hf]; rfl⟩,
      .of_only (honly.trans (.commitEnable _ _ _ _)) hget⟩⟩

/-- **Update.** -/
theorem updateJob_answer (patch : JobPatch) : ((a.planJobUpdate env id version patch).isOk = false ∧
        (∃ e, (a.updateJob env id version patch).1 = .error e) ∧
        SameCores a (a.updateJob env id version patch).2) ∨
      ∃ core snapshot, AtVersion a id version core ∧ version < u64Max ∧
        (a.planJobUpdate env id version patch).isOk = true ∧
        (a.updateJob env id version patch).1 = .ok snapshot ∧
        SnapshotOf (a.updateJob env id version patch).2 id snapshot ∧
        CoreSet a id (some ⟨core.settings.patched patch, core.state, version + 1⟩)
          (a.updateJob env id version patch).2 := by
  cases hp : a.planJobUpdate env id version patch with
  | error e =>
    rw [updateJob_error env hp]
    exact .inl ⟨rfl, ⟨e, rfl⟩, .of_jobs rfl⟩
  | ok plan =>
    obtain ⟨job, hj, rfl, hn, -⟩ := planJobUpdate_ok env hp
    have hget := get_commitUpdate env (a := a.tick) patch plan hj id
    rw [if_pos rfl] at hget
    rw [updateJob_commit env hp hj]
    refine .inr ⟨job.core, _, atVersion_self hj, lt_of_checkedSucc hn, rfl, rfl,
      ⟨_, hget, rfl⟩, ?_⟩
    have honly : OnlyJob id a a.tick := .of_jobs rfl rfl
    have hset := CoreSet.of_only (honly.trans (.commitUpdate patch plan hj)) hget
    rw [map_some, JobEntry.core, settings_updatedEntry, version_updatedEntry,
      state_updatedEntry, checkedSucc_eq_some hn] at hset
    exact hset

/-- **Delete.** -/
theorem deleteJob_answer (cancelRunning : Bool) : ((∀ core, ¬ AtVersion a id version core) ∧
        (∃ e, (a.deleteJob env id version cancelRunning).1 = .error e) ∧
        SameCores a (a.deleteJob env id version cancelRunning).2) ∨
      ∃ core, AtVersion a id version core ∧ (a.deleteJob env id version cancelRunning).1 = .ok () ∧
        CoreSet a id none (a.deleteJob env id version cancelRunning).2 := by
  unfold deleteJob
  cases hc : a.checkVersion id version with
  | error e =>
    refine .inl ⟨fun core hat => ?_, ⟨e, rfl⟩, fun _ => rfl⟩
    obtain ⟨job, hj, -, hv⟩ := hat.entry
    exact checkVersion_error hc job hj hv
  | ok job =>
    obtain ⟨hj, rfl⟩ := checkVersion_ok hc
    have hget := get_commitDelete env a id job cancelRunning
    have honly : OnlyJob id a (a.commitDelete env id job cancelRunning) :=
      ⟨config_commitDelete env a id job cancelRunning, fun id' hid => by rw [hget, if_neg hid]⟩
    exact .inr ⟨job.core, atVersion_self hj, rfl,
      .of_only honly ((hget id).trans (if_pos rfl))⟩

/-- The state a new Job begins in. -/
def freshState (enabled : Bool) : JobState :=
  if enabled then .enabled else .disabled "installed disabled"

/-- **Add**, at a given id. -/
theorem addJob_answer (enabled : Bool) (trigger : Trigger) (task : TaskBinding)
    (options : JobOptions) : (a.addAccepted env (some id) trigger task options = false ∧
        (∃ e, (a.addJob env (some id) version enabled trigger task options).1 = .error e) ∧
        SameCores a (a.addJob env (some id) version enabled trigger task options).2) ∨
      (a.addAccepted env (some id) trigger task options = true ∧ a.coreOf id = none ∧
        (a.addJob env (some id) version enabled trigger task options).1 = .ok id ∧
        CoreSet a id (some ⟨.fresh trigger task options, freshState enabled, version⟩)
          (a.addJob env (some id) version enabled trigger task options).2) := by
  have h := addJob_some env a id version enabled trigger task options
  split at h
  · rename_i hacc
    obtain ⟨first, h⟩ := h
    rw [h]
    have hnone : a.jobs.get id = none := by
      have hfree := hacc
      unfold addAccepted addTarget at hfree
      simp only [Bool.and_eq_true, Bool.not_eq_true', getD_some] at hfree
      exact Table.contains_eq_false_iff.mp hfree.1.2
    refine .inr ⟨hacc, by rw [coreOf, hnone]; rfl, rfl, ?_⟩
    have hget := get_installJob env a.tick id
      (newEntry version enabled trigger task options (a.now env)) enabled first id
    rw [if_pos rfl] at hget
    have honly : OnlyJob id a a.tick := .of_jobs rfl rfl
    have hset := CoreSet.of_only (honly.trans (.installJob _ _ enabled first)) hget
    cases enabled <;> exact hset
  · rename_i hacc
    obtain ⟨e, b, h, hj, -⟩ := h
    rw [h]
    exact .inl ⟨Bool.eq_false_iff.mpr hacc, ⟨e, rfl⟩, .of_jobs hj⟩

end Commands

/-! ## 3. Which commands succeed -/

/-- The command succeeds in this state. -/
def Possible (env : Env) (a : SchedulerActor) : Command → Prop
  | .add jobId _ _ trigger task options => a.addAccepted env jobId trigger task options = true
  | .update jobId version patch => (a.planJobUpdate env jobId version patch).isOk = true
  -- a Job that is not there is no error of the scheduler, but one of the caller that installed it
  | .get jobId => a.coreOf jobId ≠ none
  | .list | .getConfig => True
  | .enable jobId version =>
    ∃ core, AtVersion a jobId version core ∧
      (core.state = .enabled ∨ Enableable env a version core)
  | .disable jobId version _ => Disableable a jobId version
  | .delete jobId version => ∃ core, AtVersion a jobId version core
  | .reconcile plan => PlanChecked env a plan ∧ planPossible env a plan = true
  | .updateConfig expectedRevision patch => (a.updateConfig env expectedRevision patch).1.isOk = true

section Decidable

variable (env : Env) (a : SchedulerActor)

instance (version : Nat) (core : JobCore) : Decidable (Enableable env a version core) :=
  inferInstanceAs (Decidable (_ ∧ _))

instance (jobId : JobId) (version : Nat) (p : JobCore → Prop) [DecidablePred p] :
    Decidable (∃ core, AtVersion a jobId version core ∧ p core) :=
  decidable_of_iff (∃ core, core ∈ (a.coreOf jobId).toList ∧ core.version = version ∧ p core) <| by
    simp only [mem_toList, AtVersion, and_assoc]

instance (jobId : JobId) (version : Nat) : Decidable (∃ core, AtVersion a jobId version core) :=
  decidable_of_iff ((a.coreOf jobId).map JobCore.version = some version) map_eq_some_iff

instance (plan : SchedulerReconcilePlan) : Decidable (PlanChecked env a plan) :=
  decidable_of_iff ((a.checkPlan env plan).1.isOk = true)
    ⟨fun h => (checkPlan_ok h).1, checkPlan_of⟩

instance : (command : Command) → Decidable (Possible env a command)
  | .add _ _ _ _ _ _ => inferInstanceAs (Decidable (_ = true))
  | .update _ _ _ => inferInstanceAs (Decidable (_ = true))
  | .get _ => inferInstanceAs (Decidable (_ ≠ none))
  | .list | .getConfig => .isTrue trivial
  | .enable _ _ => inferInstanceAs (Decidable (∃ core, AtVersion _ _ _ core ∧ (_ ∨ _)))
  | .disable _ _ _ => inferInstanceAs (Decidable (Disableable _ _ _))
  | .delete _ _ => inferInstanceAs (Decidable (∃ core, AtVersion _ _ _ core))
  | .reconcile _ => inferInstanceAs (Decidable (_ ∧ _))
  | .updateConfig _ _ => inferInstanceAs (Decidable (_ = true))

end Decidable

end Smalux.Scheduler
