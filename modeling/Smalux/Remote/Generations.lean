/-
  Subject:   Does the controller know the scheduler's versions?

  The controller records the version each remote Job got from its last request and sends it with the
  next one. The scheduler counts a version up by itself when it disables a Job, and nobody tells the
  controller.

  * `Synced` -- each recorded generation is the Job's version; `synced_rule`, `synced_actions` -- each
    operation keeps that, if it is not disturbed;
  * `Undisturbed` -- the steps of a run that disturb nothing;
  * **`generations_agree_while_undisturbed`** -- then the generations agree in every state, and no
    command is refused because they do not.
-/
import Smalux.Remote.RecordRule

namespace Smalux.Remote

open Lib Scheduler SchedulerActor List

/-! ## 1. Records and versions -/

/-- Each record names the version its Job has in the scheduler. -/
def Synced (remoteJobs : Table JobId ManagedJob) (a : SchedulerActor) : Prop :=
  ∀ id managed, remoteJobs.get id = some managed →
    (a.coreOf id).map JobCore.version = some managed.generation

/-- These Jobs have the versions they had. -/
def SameVersions (ids : List JobId) (a a' : SchedulerActor) : Prop :=
  ∀ id ∈ ids, (a'.coreOf id).map JobCore.version = (a.coreOf id).map JobCore.version

/-! ## 2. Requests that name a version -/

theorem isOk_checkVersion_iff {a : SchedulerActor} {id : JobId} {version : Nat} :
    (a.checkVersion id version).isOk = true ↔ (a.coreOf id).map JobCore.version = some version := by
  unfold checkVersion coreOf
  cases a.jobs.get id with
  | none => simp [Except.isOk, Except.toBool]
  | some job =>
    by_cases hv : job.version = version <;>
      simp [hv, Except.isOk, Except.toBool, JobEntry.core]

/-- The request meets no generation mismatch: every version it names is the Job's, and a list of the
    Jobs shows what is recorded. -/
def GenerationsMet (env : Env) (remoteJobs : Table JobId ManagedJob) (found : SchedulerActor) :
    Command → Prop
  | .update id version _ | .enable id version | .disable id version _ | .delete id version =>
    (found.checkVersion id version).isOk = true
  | .reconcile plan =>
    (∀ update ∈ plan.updates,
        (found.checkVersion update.jobId update.expectedVersion).isOk = true) ∧
      ∀ deletion ∈ plan.deletions, (found.checkVersion deletion.1 deletion.2).isOk = true
  | .list => ∀ snapshots, (serve env found .list).1.jobs = .ok snapshots →
      checkGenerations snapshots remoteJobs.entries = .ok ()
  | _ => True

theorem checkGenerations_ok_iff {snapshots : List JobSnapshot}
    {entries : List (JobId × ManagedJob)} : checkGenerations snapshots entries = .ok () ↔
      ∀ entry ∈ entries, versionIn snapshots entry.1 = some entry.2.generation := by
  induction entries with
  | nil => simp [checkGenerations]
  | cons entry rest ih =>
    obtain ⟨id, managed⟩ := entry
    rw [forall_mem_cons, ← ih, checkGenerations]
    cases hv : versionIn snapshots id with
    | none => simp
    | some version =>
      by_cases heq : version = managed.generation
      · simp [heq]
      · simp [heq]

theorem Synced.met_list {env : Env} {remoteJobs : Table JobId ManagedJob} {found : SchedulerActor}
    (h : Synced remoteJobs found) : GenerationsMet env remoteJobs found .list := by
  intro snapshots hs
  rcases serve_list env found with ⟨-, he, -⟩ | ⟨-, -, snapshots', hok, hversion⟩
  · rw [he] at hs
    cases hs
  · rw [hok] at hs
    cases hs
    refine checkGenerations_ok_iff.mpr fun entry hentry => ?_
    rw [hversion]
    exact h entry.1 entry.2 (Table.get_eq_some_iff.mpr hentry)

/-! ## 3. Operations -/

/-- The request cannot leave a change without its record: the second request of an update finds the
    actor alive, a version number left and, to switch the Job on, a first run; a plan does not stop
    on the way. -/
def Completes (env : Env) (found : SchedulerActor) : Command → Prop
  | .enable id _ => found.panicked = false ∧ ∀ core ∈ found.coreOf id,
      core.state = .enabled ∨ Enableable env found core.version core
  | .disable id _ _ => found.panicked = false ∧ ∀ core ∈ found.coreOf id, core.version < u64Max
  | .reconcile plan => found.panicked = true ∨ ReconcileSafe env found plan
  | _ => True

instance (env : Env) (found : SchedulerActor) : (command : Command) →
    Decidable (Completes env found command)
  | .enable _ _ => inferInstanceAs (Decidable (_ ∧ ∀ core ∈ found.coreOf _, _ ∨ _))
  | .disable _ _ _ => inferInstanceAs (Decidable (_ ∧ ∀ core ∈ found.coreOf _, _ < _))
  | .reconcile _ => inferInstanceAs (Decidable (_ ∨ (¬ PlanChecked _ _ _) ∨ _ ∨ _))
  | .add _ _ _ _ _ _ | .update _ _ _ | .get _ | .list | .delete _ _ | .getConfig
  | .updateConfig _ _ => .isTrue trivial

/-! ## 4. Commands -/

/-- The condition on one Job. -/
def SyncedJob : JobCondition := fun _ record core _ =>
  ∀ managed, record = some managed → core.map JobCore.version = some managed.generation

/-- What the actor may do by itself, without a new version of these Jobs. -/
def Undriven (ids : List JobId) (a a' : SchedulerActor) : Prop :=
  SameVersions ids a a' ∧ Interlude a a'

theorem synced_rule (ids : List JobId) : JobRule (Undriven ids) (· ∈ ids) SyncedJob where
  calm := And.right
  moved := fun hmine hR h managed hm => by
    rw [hR.1 _ (hmine (by rw [hm]; exact Option.some_ne_none managed))]
    exact h managed hm
  dies := fun _ h => h
  gone := fun managed hm => by cases hm
  foreign := fun _ managed hm => by cases hm
  noted := fun hg _ managed hm => by
    cases hm
    rw [hg]
    rfl

section Commands

variable {env : Env} {state : ControllerState}

/-- What a catalog's plan names is at the recorded generations. -/
theorem Synced.met_reconcile {jobs : List CompiledJob} {plan : SchedulerReconcilePlan}
    (h : Synced state.remoteJobs found) (hplan : planJobs state jobs = .ok plan) :
    GenerationsMet env state.remoteJobs found
      (.reconcile { plan with deletions := planDeletions state (jobs.map CompiledJob.id) }) := by
  refine ⟨fun update hu => ?_, fun deletion hd => ?_⟩
  · obtain ⟨job, -, current, hget, -, rfl⟩ := (planJobs_asks state hplan).1 update hu
    exact isOk_checkVersion_iff.mpr (h job.id current hget)
  · obtain ⟨entry, hentry, rfl⟩ := mem_map.mp hd
    have hget := Table.get_eq_some_iff.mpr (mem_filter.mp hentry).1
    exact isOk_checkVersion_iff.mpr (h entry.1 entry.2 hget)

theorem synced_actions : ActionRule env (Undriven state.remoteJobs.keys) (Completes env)
    (GenerationsMet env state.remoteJobs) (· ∈ state.remoteJobs.keys) state SyncedJob where
  toJobRule := synced_rule _
  known := fun hne => Table.mem_keys_iff.mpr (Option.ne_none_iff_exists'.mp hne)
  unseen := fun managed hm => by cases hm
  touched := fun core' _ _ _ managed hm => by
    cases hm
    rfl
  unchanged := fun _ hg h managed hm => by
    cases hm
    rw [hg]
    exact h _ rfl
  -- the request that completes a change is served
  refused := fun managed hok hno hcommand h _ => by
    obtain ⟨core, hcore, hversion⟩ := Option.map_eq_some_iff.mp (h managed rfl)
    refine absurd ?_ hno
    rcases hcommand with rfl | ⟨reason, rfl⟩
    · exact ⟨hok.1, core, ⟨hcore, hversion⟩, hversion ▸ hok.2 core hcore⟩
    · exact ⟨hok.1, ⟨core, hcore, hversion⟩, hversion ▸ hok.2 core hcore⟩
  fenced := fun {found id command managed} h hc => by
    have hmet := isOk_checkVersion_iff.mpr (h managed rfl)
    cases command with
    | update | enable | disable | delete =>
      obtain ⟨rfl, rfl⟩ := hc
      exact hmet
    | _ => cases hc
  unfenced := fun {found command} hc => by
    cases command with
    | add | get | getConfig => exact trivial
    | _ => cases hc
  listed := Synced.met_list
  planned := Synced.met_reconcile
  unbroken := fun h => h

end Commands

/-! ## 5. Runs -/

/-- The message neither disables nor deletes one of these Jobs. -/
def SparesAll (env : Env) (ids : List JobId) (a : SchedulerActor) (message : Internal) : Prop :=
  ∀ id ∈ ids, Spares env a id message.1
  deriving Decidable

theorem sameVersions_of_spares {env : Env} {ids : List JobId} (a : SchedulerActor)
    (messages : List Internal) (h : Along (internalTurn env) (SparesAll env ids) a messages) :
    SameVersions ids a (run (internalTurn env) a messages) := by
  induction messages generalizing a with
  | nil => exact fun _ _ => rfl
  | cons message rest ih =>
    intro id hid
    exact (ih _ h.2 id hid).trans ((h.1 id hid).version_eq message.2)

theorem undriven_of_spares {env : Env} {ids : List JobId} (a : SchedulerActor)
    (messages : List Internal) (h : Along (internalTurn env) (SparesAll env ids) a messages) :
    Undriven ids a (run (internalTurn env) a messages) :=
  ⟨sameVersions_of_spares a messages h, calm_interlude env messages a, interlude_alive env messages⟩

/-- **The step disturbs nothing.** The actor by itself neither disables nor deletes a remote Job,
    between operations or before a call of one; and once a command has changed a Job, the request
    that completes the change is served. -/
def Undisturbed (env : Env) (s : Agent) : Act → Prop
  | .internal message => SparesAll env s.controller.remoteJobs.keys s.scheduler message
  | .command factory command script =>
    Client.Guarded (serve env) (internalTurn env) (SparesAll env s.controller.remoteJobs.keys)
      (Completes env) (applyCommand factory s.policy s.controller command) script s.scheduler
  | .updatePolicy change persist script =>
    Client.Guarded (serve env) (internalTurn env) (SparesAll env s.controller.remoteJobs.keys)
      (fun _ _ => True) (updatePolicy s.policy s.controller change persist) script s.scheduler
  | .pausePlugin plugin script =>
    Client.Guarded (serve env) (internalTurn env) (SparesAll env s.controller.remoteJobs.keys)
      (fun _ _ => True) (pausePlugin s.controller plugin) script s.scheduler
  | .clearRemoteJobs script =>
    Client.Guarded (serve env) (internalTurn env) (SparesAll env s.controller.remoteJobs.keys)
      (fun _ _ => True) (clearRemoteJobs s.controller) script s.scheduler
  | .resumePlugin _ | .rehash _ => True

instance (env : Env) (s : Agent) : (act : Act) → Decidable (Undisturbed env s act)
  | .internal _ => inferInstanceAs (Decidable (SparesAll _ _ _ _))
  | .command _ _ _ | .updatePolicy _ _ _ | .pausePlugin _ _ | .clearRemoteJobs _ =>
    inferInstanceAs (Decidable (Client.Guarded _ _ _ _ _ _ _))
  | .resumePlugin _ | .rehash _ => .isTrue trivial

/-- The records of the Agent are right. -/
def Agent.Synced (s : Agent) : Prop := Remote.Synced s.controller.remoteJobs s.scheduler

/-- No request of the command meets a generation mismatch. -/
def NoMismatch (env : Env) (s : Agent) : Act → Prop
  | .command factory command script =>
    ∀ call ∈ performed env (applyCommand factory s.policy s.controller command) script s.scheduler,
      GenerationsMet env s.controller.remoteJobs call.1 call.2
  | _ => True

section Runs

variable {env : Env} {s : Agent}

/-- **An undisturbed step** keeps the records right. -/
theorem Agent.Synced.step (h : s.Synced) (act : Act) (hu : Undisturbed env s act) :
    (s.step env act).Synced :=
  synced_actions.step undriven_of_spares h act (by cases act <;> exact hu)

theorem noMismatch_of_synced (h : s.Synced) (act : Act) (hu : Undisturbed env s act) :
    NoMismatch env s act := by
  cases act with
  | command factory command =>
    have hwp : Wp env _ _ (GenerationsMet env s.controller.remoteJobs)
        (applyCommand factory s.policy s.controller command)
        (fun r a' => SyncedJob.Holds r.2.remoteJobs a') s.scheduler :=
      wp_applyCommand h (synced_actions.applyAction h command.action)
    exact Client.calls_of_wp undriven_of_spares hwp hu
  | _ => exact trivial

end Runs

/-- **The generations agree** in every run whose steps disturb nothing: in every state each recorded
    generation is its Job's version, and no request of a command is refused because it is not. -/
theorem generations_agree_while_undisturbed (env : Env) (policy : RemoteJobPolicy)
    (scheduler : SchedulerActor) (acts : List Act)
    (h : Along (Agent.step env) (Undisturbed env) (.fresh policy scheduler) acts) :
    Throughout (Agent.step env) Agent.Synced (.fresh policy scheduler) acts ∧
      Along (Agent.step env) (NoMismatch env) (.fresh policy scheduler) acts := by
  have hfresh : (Agent.fresh policy scheduler).Synced := fun id managed hid => by cases hid
  have hstep : ∀ s act, Agent.Synced s → Undisturbed env s act → (s.step env act).Synced :=
    fun s act hs hu => hs.step act hu
  refine ⟨throughout_of_invariant hstep (fun s hs => hs) hfresh h, ?_⟩
  exact along_of_invariant hstep (fun s act hs hu => noMismatch_of_synced hs act hu) hfresh h

/-- Two Jobs are installed; the first runs, is switched off while the clock is checked, and the second
    is taken back. -/
def undisturbedRun : List Act :=
  [upsertNow 1 (pollingAs 1 1), upsertNow 2 (pollingAs 2 1), .internal ⟨.expired [0], rfl⟩,
    .internal ⟨.completion (pollingRun 1 1 1 0) 0 (.finished .completed), rfl⟩,
    .command .lenient switchOff [[], [⟨.maintenance, rfl⟩]],
    .command .lenient (deleteCommand 4 2 1) []]

theorem generations_agree_in_run :
    Along (Agent.step .still) (Undisturbed .still) freshAgent undisturbedRun ∧
      Throughout (Agent.step .still) Agent.Synced freshAgent undisturbedRun := by
  have h : Along (Agent.step .still) (Undisturbed .still) freshAgent
      undisturbedRun := by decide +kernel
  exact ⟨h, (generations_agree_while_undisturbed .still {}
    (start .still { globalConcurrency := 4 }) undisturbedRun h).1⟩

/-- **A Job that failed for good is out of reach.** The scheduler has disabled it and counted its
    version up; the controller still has the old one. The Server's next Delete and its next
    ReplaceAll keep to every rule of revisions, policy, ownership and capacity, and both are
    refused. -/
theorem failed_job_out_of_reach :
    let s := run (Agent.step .still) twoPolling firstJobFails
    let answer := fun command =>
      (perform .still (applyCommand .lenient s.policy s.controller command) [] s.scheduler).1.1
    ¬ s.Synced ∧
      (requireNextCatalog s.controller 3).isOk = true ∧
      (expectManaged s.controller (Uuid.asBytes 1) 1).isOk = true ∧
      (answer (deleteCommand 3 1 1)).error =
        some ⟨.revisionConflict, (SchedulerError.versionConflict 1 1 2).text⟩ ∧
      (answer (replaceAllCommand 3 [pollingAs 1 1, pollingAs 2 1])).error =
        some ⟨.revisionConflict,
          "Scheduler generation for " ++ Uuid.text 1 ++ " changed from 1 to 2"⟩ := by
  refine ⟨fun hsynced => ?_, by decide +kernel, by decide +kernel, by decide +kernel,
    by decide +kernel⟩
  have hrecorded : ((run (Agent.step .still) twoPolling
      firstJobFails).controller.remoteJobs.get 1).map ManagedJob.generation = some 1 := by
    decide +kernel
  have hversion : ((run (Agent.step .still) twoPolling
      firstJobFails).scheduler.coreOf 1).map JobCore.version = some 2 := by decide +kernel
  obtain ⟨managed, hm, hg⟩ := Option.map_eq_some_iff.mp hrecorded
  have h := hsynced 1 managed hm
  rw [hversion, hg] at h
  cases h

end Smalux.Remote
