/-
  Subject:   Is the scheduler what the Server's catalog says?

  ReplaceAll compares each definition with the one applied last. A definition that is the same is
  left alone, whatever has become of its Job in the meantime.

  * `KeptJob` -- what every operation keeps: a Job at its recorded generation whose definition is off
    is not Enabled, and a Job that is not recorded is somebody else's;
  * `replaceAll_applied` -- what an applied ReplaceAll has done;
  * **`snapshot_reflected_iff`** -- exactly when the scheduler then is what the catalog says.
-/
import Smalux.Remote.Generations

namespace Smalux.Remote

open Lib Scheduler SchedulerActor List Option

variable {env : Env} {state : ControllerState} {a : SchedulerActor} {factory : TaskFactory}
  {foreign : JobId → Prop}

/-! ## 1. What every operation keeps -/

/-- The Job has its recorded generation or a later version, and at that generation it is off if its
    definition is. -/
def ManagedJob.Honest (managed : ManagedJob) (core : JobCore) : Prop :=
  managed.generation ≤ core.version ∧
    (core.version = managed.generation → managed.definition.enabled = false → core.state ≠ .enabled)

def HonestAt (id : JobId) (remoteJobs : Table JobId ManagedJob) (a : SchedulerActor) : Prop :=
  ∀ managed core, remoteJobs.get id = some managed → a.coreOf id = some core → managed.Honest core

/-- What holds of a Job after a part of an operation, with what held before the operation. -/
structure KeptJob (remoteJobs₀ : Table JobId ManagedJob) (a₀ : SchedulerActor) (id : JobId)
    (record : Option ManagedJob) (core : Option JobCore) (dead : Bool) : Prop where
  honest : ∀ managed now, record = some managed → core = some now → managed.Honest now
  /-- as long as the actor lives, a Job that is not recorded was there and not recorded before -/
  foreign : dead = false → core ≠ none → record = none →
    a₀.coreOf id ≠ none ∧ remoteJobs₀.get id = none

section Kept

variable {remoteJobs₀ remoteJobs : Table JobId ManagedJob} {a₀ a' : SchedulerActor} {id : JobId}

theorem ManagedJob.Honest.calm {managed : ManagedJob} {core core' : JobCore}
    (h : managed.Honest core) (hc : core.Calmed core') : managed.Honest core' := by
  have hgrows := hc.version
  obtain ⟨hle, hoff⟩ := h
  exact ⟨by omega, fun heq hdisabled => hc.not_enabled (hoff (by omega) hdisabled)⟩

theorem HonestAt.calm (h : HonestAt id remoteJobs a) (hc : Calm a a') : HonestAt id remoteJobs a' := by
  intro managed core' hm hcore'
  obtain ⟨core, hcore, hcalm⟩ := hc id core' hcore'
  exact (h managed core hm hcore).calm hcalm

/-- What is there was there. -/
theorem Calm.there (hc : Calm a a') (h : a'.coreOf id ≠ none) : a.coreOf id ≠ none := by
  obtain ⟨core', hcore'⟩ := ne_none_iff_exists'.mp h
  obtain ⟨core, hcore, -⟩ := hc id core' hcore'
  rw [hcore]
  exact some_ne_none core

/-! ## 2. Operations -/

/-- A plan does not stop on the way. -/
def Unbroken (env : Env) (found : SchedulerActor) : Command → Prop
  | .reconcile plan => found.panicked = true ∨ ReconcileSafe env found plan
  | _ => True

instance (env : Env) (found : SchedulerActor) : (command : Command) →
    Decidable (Unbroken env found command)
  | .reconcile _ => inferInstanceAs (Decidable (_ ∨ (¬ PlanChecked _ _ _) ∨ _ ∨ _))
  | .add _ _ _ _ _ _ | .update _ _ _ | .get _ | .list | .enable _ _ | .disable _ _ _ | .delete _ _
  | .getConfig | .updateConfig _ _ => .isTrue trivial

theorem kept_rule : JobRule Interlude (fun _ => True) (KeptJob remoteJobs₀ a₀) where
  calm := fun h => h
  moved := fun _ hR h => by
    refine ⟨fun managed now hm hnow => ?_, fun hlive hthere => ?_⟩
    · obtain ⟨core, hcore, hcalm⟩ := hR.1 _ now hnow
      exact (h.honest managed core hm hcore).calm hcalm
    · exact h.foreign (hR.2 hlive) (Calm.there hR.1 hthere)
  dies := fun hd h => ⟨h.honest, fun hlive => h.foreign (hd hlive)⟩
  gone := ⟨fun _ _ hm => (by cases hm), fun _ hthere => absurd rfl hthere⟩
  foreign := fun h =>
    ⟨fun _ _ hm => (by cases hm), fun hlive _ => h.foreign hlive (some_ne_none _)⟩
  noted := fun hg hoff => by
    refine ⟨fun managed now hm hnow => ?_, fun _ _ hnone => by cases hnone⟩
    cases hm
    cases hnow
    exact ⟨hg.le, fun _ => hoff⟩

theorem kept_actions : ActionRule env Interlude (Unbroken env) (fun _ _ => True) (fun _ => True) state
    (KeptJob remoteJobs₀ a₀) where
  toJobRule := kept_rule
  known := fun _ => trivial
  unseen := ⟨fun _ _ hm => (by cases hm), nofun⟩
  touched := fun core' h hversion hstate => kept_rule.noted rfl fun hoff => by
    rw [hstate]
    exact (h.honest _ _ rfl rfl).2 hversion hoff
  unchanged := fun {id core dead managed managed'} hd hg h => by
    refine ⟨fun _ now hm hnow => ?_, fun _ _ hnone => by cases hnone⟩
    cases hm
    have hnow := h.honest managed now rfl hnow
    rwa [ManagedJob.Honest, ← hd, ← hg] at hnow
  -- the record lags behind, which is all the invariant asks of it
  refused := fun managed _ _ _ h hlag => by
    refine ⟨fun _ now hm hnow => ?_, fun _ _ hnone => by cases hnone⟩
    cases hm
    have hle := (h.honest managed now rfl hnow).1
    exact ⟨hlag.le.trans hle, fun heq => absurd heq (hlag.trans_le hle).ne'⟩
  fenced := fun _ _ => trivial
  unfenced := fun _ => trivial
  listed := fun _ => trivial
  planned := fun _ _ => trivial
  unbroken := fun h => h

end Kept

/-! ## 3. Runs -/

/-- No reconcile plan of the act stops on the way. -/
def PlansUnbroken (env : Env) (s : Agent) (act : Act) : Prop :=
  ∀ call ∈ s.requests env act, Unbroken env call.1 call.2
  deriving Decidable

/-- Every Job of the Agent is as its record says, as far as the record is up to date. -/
def Agent.Honest (s : Agent) : Prop := ∀ id, HonestAt id s.controller.remoteJobs s.scheduler

section Runs

variable {s : Agent}

/-- **One act**: what every operation keeps. -/
theorem Agent.Honest.step (h : s.Honest) (act : Act) (hu : PlansUnbroken env s act) :
    JobCondition.Holds (KeptJob s.controller.remoteJobs s.scheduler)
      (s.step env act).controller.remoteJobs (s.step env act).scheduler := by
  have hguarded : act.Guarded env (fun _ _ => True) (Unbroken env) (Unbroken env) s := by
    cases act with
    | command | updatePolicy | pausePlugin | clearRemoteJobs => exact Client.guarded_of_calls _ _ hu
    | internal | resumePlugin | rehash => exact trivial
  exact kept_actions.step
    (fun a messages _ => ⟨calm_interlude env messages a, interlude_alive env messages⟩)
    (fun id => ⟨h id, fun _ hthere hnone => ⟨hthere, hnone⟩⟩) act hguarded

/-- A dead actor answers nothing and does nothing. -/
theorem perform_alive {α : Type} {p : Calls α} {script : Script}
    (h : (perform env p script a).2.panicked = false) : a.panicked = false := by
  induction p generalizing script a with
  | done => exact h
  | ask request resume ih => exact interlude_alive env _ (serve_alive (ih _ h))

theorem step_alive {act : Act} (h : (s.step env act).scheduler.panicked = false) :
    s.scheduler.panicked = false := by
  cases act with
  | internal message => exact interlude_alive env [message] h
  | command | updatePolicy | pausePlugin | clearRemoteJobs => exact perform_alive h
  | resumePlugin | rehash => exact h

theorem run_alive {acts : List Act}
    (h : (run (Agent.step env) s acts).scheduler.panicked = false) :
    s.scheduler.panicked = false := by
  induction acts generalizing s with
  | nil => exact h
  | cons act rest ih => exact step_alive (ih h)

/-- A Job of somebody else: there from the beginning, and never recorded. -/
def Foreign (env : Env) (s : Agent) (acts : List Act) (id : JobId) : Prop :=
  s.scheduler.coreOf id ≠ none ∧
    Throughout (Agent.step env) (fun s => s.controller.remoteJobs.get id = none) s acts

/-- **A whole run**: the records stay honest, and a Job that is not recorded is somebody else's. -/
theorem run_kept (acts : List Act) (h : s.Honest)
    (hu : Along (Agent.step env) (PlansUnbroken env) s acts) :
    (run (Agent.step env) s acts).Honest ∧
      ∀ id, (run (Agent.step env) s acts).scheduler.panicked = false →
        (run (Agent.step env) s acts).scheduler.coreOf id ≠ none →
        (run (Agent.step env) s acts).controller.remoteJobs.get id = none →
        Foreign env s acts id := by
  induction acts generalizing s with
  | nil =>
    refine ⟨h, fun id _ hthere hnone => ⟨hthere, fun past hp => ?_⟩⟩
    rw [prefix_nil.mp hp]
    exact hnone
  | cons act rest ih =>
    have hstep := h.step act hu.1
    obtain ⟨hhonest, hforeign⟩ := ih (fun id => (hstep id).honest) hu.2
    refine ⟨hhonest, fun id hlive hthere hnone => ?_⟩
    obtain ⟨hthere, hnever⟩ := hforeign id hlive hthere hnone
    obtain ⟨hthere, hnone⟩ := (hstep id).foreign (run_alive hlive) hthere hnever.head
    refine ⟨hthere, fun past hp => ?_⟩
    cases past with
    | nil => exact hnone
    | cons act' past =>
      obtain ⟨rfl, hrest⟩ := cons_prefix_cons.mp hp
      exact hnever past hrest

end Runs

/-! ## 4. A ReplaceAll that is applied -/

section Applied

variable {α β : Type} {script : Script} {f : α → Calls (Except ControlError β)}

theorem perform_checked {x : Except ControlError α}
    (h : Succeeds (perform env (checked x f) script a).1) :
    ∃ value, x = .ok value ∧ checked x f = f value := by
  cases x with
  | error => cases h
  | ok value => exact ⟨value, rfl, rfl⟩

theorem perform_onScheduler {command : Command} {read : Answer → Except SchedulerError α}
    (h : Succeeds (perform env
      (onScheduler (.ask command fun answer => .done (read answer)) f) script a).1) :
    ∃ found value, Interlude a found ∧ read (serve env found command).1 = .ok value ∧
      perform env (onScheduler (.ask command fun answer => .done (read answer)) f) script a =
        perform env (f value) script.tail (serve env found command).2 ∧
      performed env (onScheduler (.ask command fun answer => .done (read answer)) f) script a =
        (found, command) :: performed env (f value) script.tail (serve env found command).2 := by
  have hinterlude : Interlude a (run (internalTurn env) a (script.headD [])) :=
    ⟨calm_interlude env _ a, interlude_alive env _⟩
  dsimp only [perform, performed, onScheduler, bind, Client.bind, Client.exec, Client.calls] at h ⊢
  generalize run (internalTurn env) a (script.headD []) = found at h hinterlude ⊢
  cases hread : read (serve env found command).1 with
  | error =>
    rw [hread] at h
    cases h
  | ok value => exact ⟨found, value, hinterlude, hread, rfl, rfl⟩

/-- **What an applied ReplaceAll has done**: the records agreed with the scheduler when it listed its
    Jobs, and the plan was carried out on the state `found`. -/
theorem replaceAll_applied {policy : RemoteJobPolicy} {command : Proto.ReplaceAllJobs}
    (h : Succeeds (perform env (replaceAll factory policy state command) script a).1) :
    ∃ jobs listed configured found plan b applied remoteJobs,
      compileAll factory policy [] command.jobs = .ok jobs ∧
      Interlude a listed ∧ Synced state.remoteJobs listed ∧ Interlude listed found ∧
      found.panicked = false ∧ CarriedOut state jobs found b applied remoteJobs ∧
      performed env (replaceAll factory policy state command) script a =
        [(listed, .list), (configured, .getConfig), (found, .reconcile plan)] ∧
      SameCores b (perform env (replaceAll factory policy state command) script a).2 ∧
      (perform env (replaceAll factory policy state command) script a).1 = .ok ({ state with
          remoteJobs := remoteJobs, catalogRevision := command.catalogRevision }, none) := by
  unfold replaceAll Calls.list Calls.getConfig Calls.reconcile at h ⊢
  obtain ⟨_, -, hp⟩ := perform_checked h
  rw [hp] at h ⊢
  obtain ⟨jobs, hjobs, hp⟩ := perform_checked h
  rw [hp] at h ⊢
  obtain ⟨listed, snapshots, hlisted, hlist, hp, hcalls⟩ := perform_onScheduler h
  rw [hp] at h
  rw [hp, hcalls]
  obtain ⟨_, hgenerations, hp⟩ := perform_checked h
  rw [hp] at h ⊢
  obtain ⟨_, -, hp⟩ := perform_checked h
  rw [hp] at h ⊢
  obtain ⟨configured, config, hconfigured, -, hp, hcalls⟩ := perform_onScheduler h
  rw [hp] at h
  rw [hp, hcalls]
  obtain ⟨_, -, hp⟩ := perform_checked h
  rw [hp] at h ⊢
  obtain ⟨plan, hplan, hp⟩ := perform_checked h
  rw [hp] at h ⊢
  obtain ⟨found, applied, hfound, hreconcile, hp, hcalls⟩ := perform_onScheduler h
  rw [hp] at h
  rw [hp, hcalls]
  obtain ⟨remoteJobs, hrecord, hp⟩ := perform_checked h
  rw [hp]
  have hserved : Served env found (.reconcile (wholePlan state jobs plan)) := by
    by_contra hno
    obtain ⟨e, he⟩ := serve_reconcile_error env found _ hno
    exact absurd (hreconcile.symm.trans he) (nofun)
  obtain ⟨applied', b, hok, happlied, hsame, hversions⟩ := serve_reconcile env found _ hserved
  have heq : applied' = applied := Except.ok.inj (hok.symm.trans hreconcile)
  have hagreed : Synced state.remoteJobs listed := by
    rcases serve_list env listed with ⟨-, he, -⟩ | ⟨-, -, snapshots', hok, hversion⟩
    · rw [he] at hlist
      cases hlist
    · intro id managed hget
      rw [← hversion id, show snapshots' = snapshots from Except.ok.inj (hok.symm.trans hlist)]
      exact checkGenerations_ok_iff.mp hgenerations _ (Table.get_eq_some_iff.mp hget)
  -- reading changes nothing
  have hbetween : Interlude listed found := by
    have hread : Interlude listed (serve env listed .list).2 := by
      rcases serve_list env listed with ⟨-, -, hs⟩ | ⟨-, hs, -⟩ <;> exact ⟨.of_eq hs, serve_alive⟩
    have hread' : Interlude configured (serve env configured .getConfig).2 := by
      rcases serve_getConfig env configured with ⟨-, -, hs⟩ | ⟨-, hs, -⟩ <;>
        exact ⟨.of_eq hs, serve_alive⟩
    exact ((hread.trans hconfigured).trans hread').trans hfound
  exact ⟨jobs, listed, configured, found, _, b, applied, remoteJobs, hjobs, hlisted, hagreed,
    hbetween, hserved.1, ⟨plan, (compileAll_ok hjobs).1, hplan, happlied, heq ▸ hversions, hrecord⟩,
    rfl, hsame, rfl⟩

end Applied

/-! ## 5. The catalog and the scheduler -/

/-- The catalog has a definition of the Job. -/
def Names (snapshot : Proto.ReplaceAllJobs) (id : JobId) : Prop :=
  ∃ definition ∈ snapshot.jobs, parseUuid definition.jobId "job_id" = .ok id

/-- **The scheduler is what the catalog says**: apart from the Jobs of others it has exactly the
    catalog's, none of them is Enabled that should be off, and none Disabled that should be on. -/
structure Reflects (snapshot : Proto.ReplaceAllJobs) (foreign : JobId → Prop) (a : SchedulerActor) :
    Prop where
  jobs : ∀ id, (a.coreOf id ≠ none ∧ ¬ foreign id) ↔ Names snapshot id
  off : ∀ definition ∈ snapshot.jobs, ∀ id core, parseUuid definition.jobId "job_id" = .ok id →
    a.coreOf id = some core → definition.enabled = false → core.state ≠ .enabled
  on : ∀ definition ∈ snapshot.jobs, ∀ id core, parseUuid definition.jobId "job_id" = .ok id →
    a.coreOf id = some core → definition.enabled = true → ∀ reason, core.state ≠ .disabled reason

/-- Each definition that is the one applied last has its Job, and the Job is not Disabled if it
    should be on. -/
def Retained (state : ControllerState) (snapshot : Proto.ReplaceAllJobs) (found : SchedulerActor) :
    Prop :=
  ∀ definition ∈ snapshot.jobs, ∀ id managed, parseUuid definition.jobId "job_id" = .ok id →
    state.remoteJobs.get id = some managed → managed.definition = definition →
    ∃ core, found.coreOf id = some core ∧
      (definition.enabled = true → ∀ reason, core.state ≠ .disabled reason)

section Reflected

variable {policy : RemoteJobPolicy} {snapshot : Proto.ReplaceAllJobs} {jobs : List CompiledJob}

/-- A definition of the catalog and its id are those of a compiled Job. -/
theorem compiled_of_definition (h : compileAll factory policy [] snapshot.jobs = .ok jobs)
    {definition : Proto.JobDefinition} (hd : definition ∈ snapshot.jobs) {id : JobId}
    (hid : parseUuid definition.jobId "job_id" = .ok id) :
    ∃ job ∈ jobs, job.definition = definition ∧ job.id = id ∧ job.enabled = definition.enabled := by
  obtain ⟨-, -, hdefs, hjobs⟩ := compileAll_ok h
  rw [← hdefs] at hd
  obtain ⟨job, hjob, rfl⟩ := mem_map.mp hd
  obtain ⟨henabled, hparse, -⟩ := hjobs job hjob
  exact ⟨job, hjob, rfl, Except.ok.inj (hparse.symm.trans hid), henabled⟩

theorem names_iff (h : compileAll factory policy [] snapshot.jobs = .ok jobs) (id : JobId) :
    Names snapshot id ↔ ∃ job ∈ jobs, job.id = id := by
  constructor
  · rintro ⟨definition, hd, hid⟩
    obtain ⟨job, hjob, -, hid, -⟩ := compiled_of_definition h hd hid
    exact ⟨job, hjob, hid⟩
  · rintro ⟨job, hjob, rfl⟩
    obtain ⟨-, -, hdefs, hjobs⟩ := compileAll_ok h
    exact ⟨job.definition, hdefs ▸ mem_map_of_mem hjob, (hjobs job hjob).2.1⟩

/-- **What a catalog that was carried out leaves**: it is reflected exactly if what it left alone was
    as it says. -/
theorem reflects_iff_retained {listed found b : SchedulerActor} {applied : List JobSnapshot}
    {remoteJobs : Table JobId ManagedJob}
    (hjobs : compileAll factory policy [] snapshot.jobs = .ok jobs)
    (hhonest : ∀ id, HonestAt id state.remoteJobs listed) (hsynced : Synced state.remoteJobs listed)
    (hcalm : Calm listed found) (hdone : CarriedOut state jobs found b applied remoteJobs)
    (hrecorded : ∀ id managed, remoteJobs.get id = some managed → ¬ foreign id)
    (hforeign : ∀ id, b.coreOf id ≠ none → remoteJobs.get id = none → foreign id) :
    Reflects snapshot foreign b ↔ Retained state snapshot found := by
  constructor
  · intro h definition hd id managed hid hget hsame
    obtain ⟨job, hjob, hdef, rfl, henabled⟩ := compiled_of_definition hjobs hd hid
    have hthere := ((h.jobs job.id).mpr ⟨definition, hd, hid⟩).1
    obtain ⟨core, hcore⟩ := ne_none_iff_exists'.mp hthere
    rcases hdone.cases hjob with ⟨current, -, -, hleft, -⟩ | ⟨hchanged, -⟩
    · exact ⟨core, hleft.symm.trans hcore, h.on definition hd job.id core hid hcore⟩
    · exact absurd (hsame.trans hdef.symm) (hchanged managed hget)
  · intro h
    -- what is left alone has the state `found` had, what the plan asks for is as it says
    have hstates : ∀ definition ∈ snapshot.jobs, ∀ id,
        parseUuid definition.jobId "job_id" = .ok id →
        ∃ core, b.coreOf id = some core ∧ (definition.enabled = false → core.state ≠ .enabled) ∧
          (definition.enabled = true → ∀ reason, core.state ≠ .disabled reason) := by
      intro definition hd id hid
      obtain ⟨job, hjob, hdef, rfl, henabled⟩ := compiled_of_definition hjobs hd hid
      rcases hdone.cases hjob with
        ⟨current, hget, hsame, hleft, -⟩ | ⟨-, core, hcore, hswitched, -⟩
      · obtain ⟨core, hcore, hon⟩ := h definition hd job.id current hid hget (hsame.trans hdef)
        refine ⟨core, hleft.trans hcore, fun hdisabled => ?_, hon⟩
        obtain ⟨core₀, hcore₀, hcalmed⟩ := hcalm job.id core hcore
        have hversion := hsynced job.id current hget
        rw [hcore₀] at hversion
        refine hcalmed.not_enabled ((hhonest job.id current core₀ hget hcore₀).2
          (Option.some.inj hversion) ?_)
        rw [hsame, hdef]
        exact hdisabled
      · refine ⟨core, hcore, fun hdisabled hstate => ?_, fun hon reason hstate => ?_⟩
        · rw [← henabled, hswitched.mpr hstate] at hdisabled
          cases hdisabled
        · rw [hswitched.mp (henabled.trans hon)] at hstate
          cases hstate
    refine ⟨fun id => ⟨fun ⟨hthere, hmine⟩ => ?_, fun hnamed => ?_⟩, ?_, ?_⟩
    · rw [names_iff hjobs]
      cases hget : remoteJobs.get id with
      | none => exact absurd (hforeign id hthere hget) hmine
      | some => exact hdone.recorded_only hget
    · obtain ⟨definition, hd, hid⟩ := hnamed
      obtain ⟨core, hcore, -⟩ := hstates definition hd id hid
      refine ⟨by rw [hcore]; exact some_ne_none core, ?_⟩
      obtain ⟨job, hjob, -, rfl, -⟩ := compiled_of_definition hjobs hd hid
      rcases hdone.cases hjob with ⟨_, -, -, -, hm⟩ | ⟨-, _, -, -, hm⟩ <;>
        exact hrecorded job.id _ hm
    · intro definition hd id core hid hcore
      obtain ⟨core', hcore', hoff, -⟩ := hstates definition hd id hid
      rw [hcore] at hcore'
      cases hcore'
      exact hoff
    · intro definition hd id core hid hcore
      obtain ⟨core', hcore', -, hon⟩ := hstates definition hd id hid
      rw [hcore] at hcore'
      cases hcore'
      exact hon

theorem reflects_congr {b b' : SchedulerActor} (hs : SameCores b b') :
    Reflects snapshot foreign b' ↔ Reflects snapshot foreign b := by
  constructor <;> intro h <;> refine ⟨fun id => ?_, fun definition hd id core hid hcore => ?_,
    fun definition hd id core hid hcore => ?_⟩
  · rw [← hs id]
    exact h.jobs id
  · exact h.off definition hd id core hid ((hs id).trans hcore)
  · exact h.on definition hd id core hid ((hs id).trans hcore)
  · rw [hs id]
    exact h.jobs id
  · exact h.off definition hd id core hid ((hs id).symm.trans hcore)
  · exact h.on definition hd id core hid ((hs id).symm.trans hcore)

end Reflected

/-- **Exactly when an applied catalog is reflected.** After any run in which no plan stopped on the
    way, a ReplaceAll that was carried out and applied leaves the scheduler as its catalog says if
    and only if, when its plan was carried out, each definition that was the one applied last had
    its Job, not Disabled if it should be on. -/
theorem snapshot_reflected_iff (env : Env) (factory : TaskFactory) (policy : RemoteJobPolicy)
    (scheduler : SchedulerActor) (acts : List Act)
    (hacts : Along (Agent.step env) (PlansUnbroken env) (.fresh policy scheduler) acts)
    (s : Agent) (hs : run (Agent.step env) (.fresh policy scheduler) acts = s)
    (command : Proto.JobCommand) (snapshot : Proto.ReplaceAllJobs)
    (haction : command.action = some (.replaceAll snapshot)) (script : Script)
    (hnew : ∀ id, parseUuid command.commandId "command_id" = .ok id →
      s.controller.cachedResults.get id = none)
    (happlied : (perform env (applyCommand factory s.policy s.controller command) script
      s.scheduler).1.1.status = .applied) : Reflects snapshot
        (Foreign env (.fresh policy scheduler) (acts ++ [.command factory command script]))
        (s.step env (.command factory command script)).scheduler ↔
      ∀ call ∈ s.requests env (.command factory command script), ∀ plan,
        call.2 = .reconcile plan → Retained s.controller snapshot call.1 := by
  obtain ⟨commandId, hid⟩ : ∃ id, parseUuid command.commandId "command_id" = .ok id := by
    cases hparse : parseUuid command.commandId "command_id" with
    | ok id => exact ⟨id, rfl⟩
    | error =>
      unfold applyCommand at happlied
      rw [hparse] at happlied
      cases happlied
  obtain ⟨hcalls, hactor, hrecords, -, hrefused⟩ :=
    perform_applyCommand env factory s.policy s.controller hid (hnew commandId hid) script s.scheduler
  have hok : Succeeds (perform env
      (applyAction factory s.policy s.controller command.action) script s.scheduler).1 := by
    by_contra hno
    exact (hrefused hno).1 happlied
  rw [haction] at hcalls hactor hrecords hok
  obtain ⟨jobs, listed, configured, found, plan, b, applied, remoteJobs, hjobs, hlisted, hsynced,
    hbetween, hlive, hdone, hperformed, hcores, hresult⟩ := replaceAll_applied hok
  have hfresh : (Agent.fresh policy scheduler).Honest := fun id managed core hm => by cases hm
  obtain ⟨hhonest, hforeign⟩ := run_kept acts hfresh hacts
  rw [hs] at hhonest hforeign
  have hend : run (Agent.step env) (.fresh policy scheduler)
      (acts ++ [.command factory command script]) = s.step env (.command factory command script) := by
    rw [run_append, hs]
    rfl
  have hremote : (s.step env (.command factory command script)).controller.remoteJobs =
      remoteJobs := by
    refine hrecords.trans ?_
    show recordsAfter s.controller (perform env (replaceAll factory s.policy s.controller snapshot)
      script s.scheduler).1 = _
    rw [hresult]
    rfl
  have hscheduler : SameCores b (s.step env (.command factory command script)).scheduler := by
    intro id
    refine (congrArg (fun a : SchedulerActor => a.coreOf id) hactor).trans ?_
    exact hcores id
  rw [reflects_congr hscheduler]
  have hiff : Reflects snapshot
      (Foreign env (.fresh policy scheduler) (acts ++ [.command factory command script])) b ↔
        Retained s.controller snapshot found :=
    reflects_iff_retained hjobs (fun id => (hhonest id).calm hlisted.1) hsynced hbetween.1 hdone ?_ ?_
  · rw [hiff]
    have hrequests : s.requests env (.command factory command script) =
        [(listed, .list), (configured, .getConfig), (found, .reconcile plan)] :=
      hcalls.trans hperformed
    rw [hrequests]
    simp
  · -- what is recorded now is not foreign
    intro id managed hget hf
    have hnone := hf.2 _ (prefix_refl _)
    rw [hend, hremote, hget] at hnone
    cases hnone
  · intro id hthere hnone
    obtain ⟨hthere, hunrecorded⟩ := hdone.foreign hthere hnone
    obtain ⟨hthere₀, hnever⟩ := hforeign id (hlisted.2 (hbetween.2 hlive))
      (Calm.there hlisted.1 (Calm.there hbetween.1 hthere)) hunrecorded
    refine ⟨hthere₀, fun past hp => ?_⟩
    rcases prefix_concat_iff.mp hp with rfl | hp
    · rw [hend, hremote]
      exact hnone
    · exact hnever past hp

/-- The two polling Jobs, sent one after the other. -/
def pollingActs : List Act := [upsertNow 1 (pollingAs 1 1), upsertNow 2 (pollingAs 2 1)]

/-- The next catalog keeps the first Job, drops the second and has a third. -/
def nextCatalog : Proto.ReplaceAllJobs := ⟨3, [pollingAs 1 1, pollingAs 3 1]⟩

theorem snapshot_reflected_next :
    let act := Act.command .lenient (replaceAllCommand 3 nextCatalog.jobs) []
    Reflects nextCatalog (Foreign .still freshAgent (pollingActs ++ [act]))
      (twoPolling.step .still act).scheduler := by
  intro act
  have hunbroken : Along (Agent.step .still) (PlansUnbroken .still) freshAgent
      pollingActs := by decide +kernel
  have happlied : (perform .still (applyCommand .lenient twoPolling.policy twoPolling.controller
      (replaceAllCommand 3 nextCatalog.jobs)) [] twoPolling.scheduler).1.1.status = .applied := by
    decide +kernel
  have hnew : twoPolling.controller.cachedResults.get 3 = none := by decide +kernel
  have hparse : parseUuid (replaceAllCommand 3 nextCatalog.jobs).commandId "command_id" = .ok 3 := by
    decide +kernel
  have hon : ∀ call ∈ twoPolling.requests .still act,
      ∀ entry ∈ twoPolling.controller.remoteJobs.entries,
        (call.1.coreOf entry.1).map JobCore.state = some .enabled := by decide +kernel
  refine (snapshot_reflected_iff .still .lenient {} (start .still { globalConcurrency := 4 })
    pollingActs hunbroken twoPolling rfl (replaceAllCommand 3 nextCatalog.jobs) nextCatalog rfl []
    (fun id hid => ?_) happlied).mpr fun call hcall plan _ definition _ id managed _ hget _ => ?_
  · rw [← Except.ok.inj (hparse.symm.trans hid)]
    exact hnew
  · obtain ⟨core, hcore, hstate⟩ :=
      map_eq_some_iff.mp (hon call hcall _ (Table.get_eq_some_iff.mp hget))
    refine ⟨core, hcore, fun _ reason hdisabled => ?_⟩
    rw [hstate] at hdisabled
    cases hdisabled

/-- The operator forbids the kind of both Jobs and allows it again. -/
def forbiddenThenAllowed : List Act :=
  pollingActs ++
    [.updatePolicy (.addTask "smalux.collect.cpu.v1") (.ok ()) [],
      .updatePolicy (.removeTask "smalux.collect.cpu.v1") (.ok ()) []]

/-- **Allowed again, and still off.** The operator forbade the kind of both Jobs, which disabled
    them, and allowed it again; the Server sends its catalog to have them back. The definitions are
    the ones applied last, so the plan is empty: ReplaceAll is applied, and the Jobs stay
    Disabled. -/
theorem forbidden_then_allowed :
    let s := run (Agent.step .still) freshAgent forbiddenThenAllowed
    let act := Act.command .lenient (replaceAllCommand 3 [pollingAs 1 1, pollingAs 2 1]) []
    (perform .still (applyCommand .lenient s.policy s.controller
        (replaceAllCommand 3 [pollingAs 1 1, pollingAs 2 1])) [] s.scheduler).1.1.status =
        .applied ∧
      (pollingAs 1 1).enabled = true ∧
      ((s.step .still act).scheduler.coreOf 1).map JobCore.state =
        some (.disabled policyReason) ∧
      ¬ Reflects ⟨3, [pollingAs 1 1, pollingAs 2 1]⟩
        (Foreign .still freshAgent (forbiddenThenAllowed ++ [act]))
        (s.step .still act).scheduler := by
  intro s act
  have hoff : ((s.step .still act).scheduler.coreOf 1).map JobCore.state =
      some (.disabled policyReason) := by decide +kernel
  have hparse : parseUuid (pollingAs 1 1).jobId "job_id" = .ok 1 := by decide +kernel
  refine ⟨by decide +kernel, rfl, hoff, fun h => ?_⟩
  obtain ⟨core, hcore, hstate⟩ := map_eq_some_iff.mp hoff
  exact h.on _ mem_cons_self 1 core hparse hcore rfl policyReason hstate

end Smalux.Remote
