/-
  Subject:   Conditions on each Job and its record, through every operation.

  An operation asks the scheduler and notes the answer. A condition that speaks of one Job at a time
  -- what is recorded for it, what it is, whether the actor is dead -- is at stake only where a
  request has an effect or something is noted.

  * `JobRule`, `ActionRule` -- what the loops and the Server's commands ask of such a condition;
  * **`ActionRule.step`** -- then every act of the Agent keeps it.
-/
import Smalux.Remote.Atomicity
import Smalux.Remote.Enforcement

namespace Smalux.Remote

open Lib Scheduler SchedulerActor Table

variable {J : JobCondition} {records : Table JobId ManagedJob} {a : SchedulerActor} {id : JobId}
  {env : Env} {R : SchedulerActor → SchedulerActor → Prop} {mine : JobId → Prop}
  {ok : SchedulerActor → Command → Prop} {command : Command}

/-! ## 1. Conditions -/

/-- Of the record of a Job, the Job itself, and whether the actor is dead. -/
abbrev JobCondition := JobId → Option ManagedJob → Option JobCore → Bool → Prop

def JobCondition.Holds (J : JobCondition) (records : Table JobId ManagedJob) (a : SchedulerActor) :
    Prop :=
  ∀ id, J id (records.get id) (a.coreOf id) a.panicked

/-- What the actor may do by itself between two requests. -/
def Interlude (a a' : SchedulerActor) : Prop :=
  Calm a a' ∧ (a'.panicked = false → a.panicked = false)

theorem Interlude.trans {a' a'' : SchedulerActor} (h : Interlude a a') (h' : Interlude a' a'') :
    Interlude a a'' := ⟨h.1.trans h'.1, fun hlive => h.2 (h'.2 hlive)⟩

namespace JobCondition.Holds

variable {id' : JobId} {managed : ManagedJob}

theorem of_others (id : JobId)
    (hothers : ∀ id', id' ≠ id → J id' (records.get id') (a.coreOf id') a.panicked)
    (hhere : J id (records.get id) (a.coreOf id) a.panicked) : J.Holds records a := by
  intro id'
  by_cases hid : id' = id
  · rw [hid]
    exact hhere
  · exact hothers id' hid

theorem insert (hothers : ∀ id', id' ≠ id → J id' (records.get id') (a.coreOf id') a.panicked)
    (hhere : J id (some managed) (a.coreOf id) a.panicked) :
    J.Holds (records.insert id managed) a := by
  refine .of_others id (fun id' hne => ?_) ?_
  · rw [get_insert, if_neg hne]
    exact hothers id' hne
  · rw [get_insert, if_pos rfl]
    exact hhere

theorem others (h : J.Holds (records.insert id managed) a) (hne : id' ≠ id) :
    J id' (records.get id') (a.coreOf id') a.panicked := by
  have hid' := h id'
  rwa [get_insert, if_neg hne] at hid'

theorem here (h : J.Holds (records.insert id managed) a) :
    J id (some managed) (a.coreOf id) a.panicked := by
  have hid := h id
  rwa [get_insert, if_pos rfl] at hid

end JobCondition.Holds

/-! ## 2. Loops -/

/-- What the loops ask of a condition. By itself the actor moves within `R`; it may do what it likes
    to a recorded Job that is not `mine`. -/
structure JobRule (R : SchedulerActor → SchedulerActor → Prop) (mine : JobId → Prop)
    (J : JobCondition) : Prop where
  calm : ∀ {a a'}, R a a' → Interlude a a'
  moved : ∀ {id record a a'}, (record ≠ none → mine id) → R a a' →
    J id record (a.coreOf id) a.panicked → J id record (a'.coreOf id) a'.panicked
  dies : ∀ {id record core dead dead'}, (dead' = false → dead = false) → J id record core dead →
    J id record core dead'
  /-- a Job that is gone -/
  gone : ∀ {id dead}, J id none none dead
  /-- a Job that is not recorded and was not before -/
  foreign : ∀ {id core core' dead}, J id none (some core) dead → J id none (some core') dead
  /-- a record that is right by itself -/
  noted : ∀ {id core dead} {managed : ManagedJob}, managed.generation = core.version →
    (managed.definition.enabled = false → core.state ≠ .enabled) → J id (some managed) (some core) dead

namespace JobRule

variable {a' : SchedulerActor} {records' : Table JobId ManagedJob} (h : JobRule R mine J)
include h

theorem found (hmine : ∀ {id}, records.get id ≠ none → mine id) (hR : R a a')
    (ha : J.Holds records a) : J.Holds records a' := fun id => h.moved hmine hR (ha id)

/-- A request without effect. -/
theorem same (hs : SameCores a (serve env a command).2) (ha : J.Holds records a) :
    J.Holds records (serve env a command).2 := by
  intro id
  rw [hs id]
  exact h.dies serve_alive (ha id)

/-- A request with an effect on one Job, and what is noted of it. -/
theorem set {core : Option JobCore} (hset : CoreSet a id core (serve env a command).2)
    (hrecords : ∀ id', id' ≠ id → records'.get id' = records.get id')
    (hothers : ∀ id', id' ≠ id → J id' (records.get id') (a.coreOf id') a.panicked)
    (hhere : J id (records'.get id) core (serve env a command).2.panicked) :
    J.Holds records' (serve env a command).2 := by
  refine .of_others id (fun id' hne => ?_) (hset.here ▸ hhere)
  rw [hrecords id' hne, hset.others id' hne]
  exact h.dies serve_alive (hothers id' hne)

/-- A Job is deleted, with its record. -/
theorem removed {version : Nat} (hset : CoreSet a id none (serve env a (.delete id version)).2)
    (ha : J.Holds records a) : J.Holds (records.remove id) (serve env a (.delete id version)).2 := by
  refine h.set hset (fun id' hne => ?_) (fun id' _ => ha id') ?_
  · exact (get_remove _ _ _).trans (if_neg hne)
  · rw [get_remove, if_pos rfl]
    exact h.gone

/-- **The loop of `update_policy` and `pause_plugin`.** -/
theorem disableAll (reason : String) (jobs : List (JobId × ManagedJob)) (state : ControllerState)
    (hmine : ∀ {id}, state.remoteJobs.get id ≠ none → mine id) (ha : J.Holds state.remoteJobs a) :
    Wp env R ok (fun _ _ => True) (Remote.disableAll reason jobs state)
      (fun r a' => J.Holds r.2.remoteJobs a') a := by
  induction jobs generalizing state a with
  | nil => exact ha
  | cons entry rest ih =>
    obtain ⟨id, managed⟩ := entry
    intro found hR _
    refine ⟨trivial, ?_⟩
    have hfound := h.found hmine hR ha
    dsimp only [Remote.disableAll, Calls.disable, bind, Client.bind]
    rcases serve_disable env found id managed.generation reason with
      ⟨-, ⟨e, he⟩, hsame⟩ | ⟨core, snapshot, -, hat, hok, hversion, hset⟩
    · rw [he]
      exact h.same hsame hfound
    · rw [hok]
      have hget : ∀ id', (noteGeneration id state snapshot).remoteJobs.get id' =
          if id' = id then (state.remoteJobs.get id').map fun current =>
            { current with generation := snapshot.version } else state.remoteJobs.get id' :=
        fun id' => get_modify _ _ _ _
      refine ih (noteGeneration id state snapshot) (fun {id'} hid' => hmine fun hnone => hid' ?_)
        (h.set hset (fun id' hne => (hget id').trans (if_neg hne)) (fun id' _ => hfound id') ?_)
      · rw [hget, hnone]
        split <;> rfl
      · rw [hget, if_pos rfl]
        have hhere := hfound id
        rw [hat.1] at hhere
        cases hrecord : state.remoteJobs.get id with
        | none =>
          rw [hrecord] at hhere
          exact h.dies serve_alive (h.foreign hhere)
        | some => exact h.noted hversion fun _ he => by cases he

/-- **The loop of `clear_remote_jobs`.** -/
theorem deleteAll (jobs : List (JobId × ManagedJob)) (state : ControllerState)
    (hmine : ∀ {id}, state.remoteJobs.get id ≠ none → mine id) (ha : J.Holds state.remoteJobs a) :
    Wp env R ok (fun _ _ => True) (Remote.deleteAll jobs state)
      (fun r a' => J.Holds r.2.remoteJobs a') a := by
  induction jobs generalizing state a with
  | nil => exact ha
  | cons entry rest ih =>
    obtain ⟨id, managed⟩ := entry
    intro found hR _
    refine ⟨trivial, ?_⟩
    have hfound := h.found hmine hR ha
    dsimp only [Remote.deleteAll, Calls.delete, bind, Client.bind]
    rcases serve_delete env found id managed.generation with
      ⟨-, ⟨e, he⟩, hsame⟩ | ⟨core, -, -, hok, hset⟩
    · rw [he]
      exact h.same hsame hfound
    · rw [hok]
      refine ih _ (fun {id'} hid' => hmine fun hnone => hid' ?_) (h.removed hset hfound)
      rw [get_remove, hnone, ite_self]

end JobRule

/-! ## 3. Commands -/

/-- The command names this version of the Job. -/
def Command.Fenced (id : JobId) (version : Nat) : Command → Prop
  | .update id' version' _ | .enable id' version' | .disable id' version' _ | .delete id' version' =>
    id' = id ∧ version' = version
  | _ => False

/-- The command names no version. -/
def Command.Unfenced : Command → Prop
  | .add _ _ _ _ _ _ | .get _ | .getConfig => True
  | _ => False

/-- What the commands of the Server ask of a condition, besides. A request that switches a Job on or
    off and is refused leaves the record behind its Job. -/
structure ActionRule (env : Env) (R : SchedulerActor → SchedulerActor → Prop)
    (ok must : SchedulerActor → Command → Prop) (mine : JobId → Prop) (state : ControllerState)
    (J : JobCondition) : Prop extends JobRule R mine J where
  known : ∀ {id}, state.remoteJobs.get id ≠ none → mine id
  /-- nobody knows whether the Job is there -/
  unseen : ∀ {id core}, J id none core true
  touched : ∀ {id current core dead} (core' : JobCore), J id (some current) (some core) dead →
    core.version = current.generation → core'.state = core.state →
    J id (some { current with generation := core'.version }) (some core') dead
  unchanged : ∀ {id core dead} {managed managed' : ManagedJob},
    managed'.definition = managed.definition → managed'.generation = managed.generation →
    J id (some managed) core dead → J id (some managed') core dead
  refused : ∀ {found id command generation} (managed : ManagedJob), ok found command →
    ¬ Served env found command → (command = .enable id managed.generation ∨
      ∃ reason, command = .disable id managed.generation reason) →
    J id (some managed) (found.coreOf id) found.panicked → generation < managed.generation →
    J id (some { managed with generation := generation }) (found.coreOf id) found.panicked
  fenced : ∀ {found id command} {managed : ManagedJob},
    J id (some managed) (found.coreOf id) found.panicked →
    Command.Fenced id managed.generation command → must found command
  unfenced : ∀ {found command}, Command.Unfenced command → must found command
  listed : ∀ {found}, J.Holds state.remoteJobs found → must found .list
  planned : ∀ {found jobs plan}, J.Holds state.remoteJobs found → planJobs state jobs = .ok plan →
    must found (.reconcile (wholePlan state jobs plan))
  unbroken : ∀ {found plan}, ok found (.reconcile plan) →
    found.panicked = true ∨ ReconcileSafe env found plan

/-- A plan that does not stop on the way. -/
theorem serve_reconcile_completes {found : SchedulerActor} {plan : SchedulerReconcilePlan}
    (h : found.panicked = true ∨ ReconcileSafe env found plan) :
    ((∃ e, (serve env found (.reconcile plan)).1.reconciled = .error e) ∧
        SameCores found (serve env found (.reconcile plan)).2) ∨
      ∃ applied b, (serve env found (.reconcile plan)).1.reconciled = .ok applied ∧
        PlanApplied found plan b ∧ SameCores b (serve env found (.reconcile plan)).2 ∧
        ∀ id ∈ plan.targetIds, versionIn applied id = (b.coreOf id).map JobCore.version := by
  by_cases hserved : Served env found (.reconcile plan)
  · exact .inr (serve_reconcile env found plan hserved)
  · refine .inl ⟨serve_reconcile_error env found plan hserved, ?_⟩
    cases hp : found.panicked with
    | true =>
      rw [serve_dead hp]
      exact fun _ => rfl
    | false =>
      have hcores : SameCores (found.handleCommand env (.reconcile plan)).2 _ := serve_cores hp
      refine SameCores.trans (.of_jobs ?_) hcores
      show (found.reconcileJobs env plan).2.jobs = found.jobs
      by_cases hc : PlanChecked env found plan
      · have hno : planPossible env found plan = false :=
          Bool.eq_false_iff.mpr fun hpossible => hserved ⟨hp, hc, hpossible⟩
        obtain ⟨e, a', hr, hsame⟩ := reconcileJobs_failed hc hno
        rw [hr]
        refine (hsame.mpr ?_).jobs
        have hlive : ¬ found.panicked = true := by rw [hp]; exact Bool.false_ne_true
        rcases h.resolve_left hlive with hbad | hpossible | hfirst
        · exact absurd hc hbad
        · exact absurd (hno.symm.trans hpossible) Bool.false_ne_true
        · exact hfirst
      · obtain ⟨e, n, hr⟩ := reconcileJobs_refused hc
        rw [hr]
        rfl

/-- After an upsert: what is returned can be recorded, or nothing needs to be. -/
def Upserted (J : JobCondition) (state : ControllerState) (job : CompiledJob)
    (result : Except ControlError JobSnapshot) (a : SchedulerActor) : Prop :=
  match result with
  | .ok snapshot => J.Holds (state.remoteJobs.insert job.id (job.managed snapshot.version)) a
  | .error _ => J.Holds state.remoteJobs a

namespace ActionRule

variable {must : SchedulerActor → Command → Prop} {state : ControllerState} {found : SchedulerActor}
  {job : CompiledJob} {current : ManagedJob} {snapshot : JobSnapshot} {core : JobCore}
  {factory : TaskFactory} {policy : RemoteJobPolicy} (h : ActionRule env R ok must mine state J)
include h

/-- The Job is on or off, as its definition says. -/
theorem switched
    (hothers : ∀ id, id ≠ job.id → J id (state.remoteJobs.get id) (found.coreOf id) found.panicked)
    (hset : CoreSet found job.id (some core) (serve env found command).2)
    (hversion : snapshot.version = core.version)
    (hoff : job.definition.enabled = false → core.state ≠ .enabled) :
    Upserted J state job (.ok snapshot) (serve env found command).2 := by
  refine h.set hset (fun id hne => (get_insert _ _ _ _).trans (if_neg hne)) hothers ?_
  rw [get_insert, if_pos rfl]
  exact h.noted hversion hoff

/-- The Job could not be switched on or off. -/
theorem notSwitched {generation : Nat} (hget : state.remoteJobs.get job.id = some current)
    (hlag : current.generation < generation) (hok : ok found command)
    (hno : ¬ Served env found command) (hcommand : command = .enable job.id generation ∨
      ∃ reason, command = .disable job.id generation reason)
    (hfound : J.Holds (state.remoteJobs.insert job.id { current with generation := generation })
      found) : J.Holds state.remoteJobs found := by
  refine .of_others job.id (fun id hne => hfound.others hne) ?_
  rw [hget]
  exact h.refused { current with generation := generation } hok hno hcommand hfound.here hlag

theorem setEnabled (hget : state.remoteJobs.get job.id = some current)
    (henabled : job.enabled = job.definition.enabled) (hid : snapshot.id = job.id)
    (hlag : current.generation < snapshot.version) (hcore : a.coreOf job.id = some core)
    (hversion : snapshot.version = core.version) (hstate : snapshot.state = core.state)
    (ha : J.Holds (state.remoteJobs.insert job.id { current with generation := snapshot.version })
      a) :
    Wp env R ok must
      (onScheduler (Remote.setEnabled snapshot job.enabled) fun snapshot => pure (.ok snapshot))
      (Upserted J state job) a := by
  have hmine : ∀ {id}, (state.remoteJobs.insert job.id
      { current with generation := snapshot.version }).get id ≠ none → mine id := by
    intro id hid'
    refine h.known fun hnone => hid' ?_
    rw [get_insert, if_neg, hnone]
    rintro rfl
    rw [hget] at hnone
    cases hnone
  have hdone : (job.definition.enabled = false → core.state ≠ .enabled) →
      Upserted J state job (.ok snapshot) a := by
    refine fun hoff => .insert (fun id hne => ha.others hne) ?_
    rw [hcore]
    exact h.noted hversion hoff
  unfold Remote.setEnabled
  split
  · rename_i hon _
    exact hdone fun hoff => by rw [← henabled, hon] at hoff; cases hoff
  · rename_i hs
    exact hdone fun _ he => by rw [← hstate, hs] at he; cases he
  · rename_i hon _
    refine wp_onScheduler fun found hR hok => ?_
    have hfound := h.found hmine hR ha
    rw [hid] at hok ⊢
    refine ⟨h.fenced hfound.here ⟨rfl, rfl⟩, ?_⟩
    have hoff : ∀ state : JobState, job.definition.enabled = false → state ≠ .enabled :=
      fun _ hoff => by rw [← henabled, hon] at hoff; cases hoff
    rcases serve_enable env found job.id snapshot.version with
      ⟨hno, ⟨e, he⟩, hsame⟩ | ⟨core', snapshot', -, hat, hok', ⟨-, hv, hsame⟩ | ⟨-, hv, hset⟩⟩
    · exact answer_error he (h.same hsame (h.notSwitched hget hlag hok hno (.inl rfl) hfound))
    · refine answer_ok hok' (h.switched (fun id hne => hfound.others hne)
        ⟨(hsame job.id).trans hat.1, fun id _ => hsame id⟩ (hv.trans hat.2.symm) (hoff _))
    · exact answer_ok hok' (h.switched (fun id hne => hfound.others hne) hset hv (hoff _))
  · refine wp_onScheduler fun found hR hok => ?_
    have hfound := h.found hmine hR ha
    rw [hid] at hok ⊢
    refine ⟨h.fenced hfound.here ⟨rfl, rfl⟩, ?_⟩
    rcases serve_disable env found job.id snapshot.version "disabled by job definition" with
      ⟨hno, ⟨e, he⟩, hsame⟩ | ⟨core', snapshot', -, -, hok', hv, hset⟩
    · exact answer_error he
        (h.same hsame (h.notSwitched hget hlag hok hno (.inr ⟨_, rfl⟩) hfound))
    · exact answer_ok hok' (h.switched (fun id hne => hfound.others hne) hset hv
        fun _ he => by cases he)

/-- A catalog has been carried out and recorded. -/
theorem carriedOut {b : SchedulerActor} {jobs : List CompiledJob} {applied : List JobSnapshot}
    (hfound : J.Holds state.remoteJobs found)
    (hdone : CarriedOut state jobs found b applied records)
    (henabled : ∀ job ∈ jobs, job.enabled = job.definition.enabled)
    (hs : SameCores b (serve env found command).2) :
    J.Holds records (serve env found command).2 := by
  intro id
  rw [hs id]
  refine h.dies serve_alive ?_
  by_cases hjob : ∃ job ∈ jobs, job.id = id
  · obtain ⟨job, hjob, rfl⟩ := hjob
    rcases hdone.cases hjob with
      ⟨current, hget, hsame, hleft, hm⟩ | ⟨-, core, hcore, hswitched, hm⟩
    · rw [hm, hleft]
      exact h.unchanged hsame.symm rfl (hget ▸ hfound job.id)
    · rw [hm, hcore]
      refine h.noted rfl fun hoff hon => ?_
      have hen : job.enabled = false := (henabled job hjob).trans hoff
      rw [hswitched.mpr hon] at hen
      cases hen
  · have hnone : records.get id = none :=
      Option.eq_none_iff_forall_ne_some.mpr fun managed hm => hjob (hdone.recorded_only hm)
    rw [hnone]
    cases hcore : b.coreOf id with
    | none => exact h.gone
    | some core =>
      obtain ⟨hthere, hunrecorded⟩ := hdone.foreign (by rw [hcore]; exact Option.some_ne_none core) hnone
      obtain ⟨core₀, hcore₀⟩ := Option.ne_none_iff_exists'.mp hthere
      have hhere := hfound id
      rw [hunrecorded, hcore₀] at hhere
      exact h.foreign hhere

variable (ha : J.Holds state.remoteJobs a)
include ha

theorem upsertExisting (hget : state.remoteJobs.get job.id = some current)
    (henabled : job.enabled = job.definition.enabled) :
    Wp env R ok must (Remote.upsertExisting job current) (Upserted J state job) a := by
  refine wp_checked (fun _ => ha) fun _ _ => wp_onScheduler fun found hR _ => ?_
  have hfound := h.found h.known hR ha
  have hhere : J job.id (some current) (found.coreOf job.id) found.panicked := hget ▸ hfound job.id
  refine ⟨h.fenced hhere ⟨rfl, rfl⟩, ?_⟩
  rcases serve_update env found job.id current.generation
      (fullPatch job.trigger job.task job.options) with
    ⟨-, ⟨e, he⟩, hsame⟩ | ⟨core, snapshot, -, hat, hok, hid, hv, hstate, hset⟩
  · exact answer_error he (h.same hsame hfound)
  · refine answer_ok hok (h.setEnabled hget henabled hid (by omega) hset.here hv hstate ?_)
    refine h.set hset (fun id hne => (get_insert _ _ _ _).trans (if_neg hne))
      (fun id _ => hfound id) ?_
    rw [hat.1] at hhere
    rw [get_insert, if_pos rfl, hv]
    exact h.dies serve_alive (h.touched ⟨_, core.state, current.generation + 1⟩ hhere hat.2 rfl)

theorem upsertNew (hget : state.remoteJobs.get job.id = none)
    (henabled : job.enabled = job.definition.enabled) :
    Wp env R ok must (Remote.upsertNew job) (Upserted J state job) a := by
  refine wp_onScheduler fun found hR _ => ⟨h.unfenced trivial, ?_⟩
  have hfound := h.found h.known hR ha
  rcases serve_install env found job.id 1 job.enabled job.trigger job.task job.options with
    ⟨-, ⟨e, he⟩, hsame⟩ | ⟨-, -, hok, hset⟩
  · exact answer_error he (h.same hsame hfound)
  · refine answer_ok hok (wp_onScheduler fun found' hR' _ => ⟨h.unfenced trivial, ?_⟩)
    have hothers : ∀ id, id ≠ job.id →
        J id (state.remoteJobs.get id) (found'.coreOf id) found'.panicked := by
      intro id hne
      refine h.moved h.known hR' ?_
      rw [hset.others id hne]
      exact h.dies serve_alive (hfound id)
    have hoff : job.definition.enabled = false → Off found' job.id := by
      intro hoff
      refine Off.calm (fun core hcore => ?_) (h.calm hR').1
      rw [hset.here] at hcore
      cases hcore
      rw [henabled, hoff]
      exact nofun
    have hkept : SameCores found' (serve env found' (.get job.id)).2 → ∀ id, id ≠ job.id →
        J id (state.remoteJobs.get id) ((serve env found' (.get job.id)).2.coreOf id)
          (serve env found' (.get job.id)).2.panicked := by
      intro hsame id hne
      rw [hsame id]
      exact h.dies serve_alive (hothers id hne)
    rcases serve_get env found' job.id with ⟨hdead, he, hsame⟩ | ⟨-, hsame, there, hok', hcore⟩
    · refine answer_error he (.of_others job.id (hkept hsame) ?_)
      rw [serve_dead hdead, hget, hdead]
      exact h.unseen
    · refine answer_ok hok' ?_
      rw [← hsame job.id] at hcore
      cases hc : (serve env found' (.get job.id)).2.coreOf job.id with
      | none =>
        rw [hc] at hcore
        rw [Option.map_eq_none_iff.mp hcore]
        refine .of_others job.id (hkept hsame) ?_
        rw [hget, hc]
        exact h.gone
      | some core =>
        rw [hc] at hcore
        obtain ⟨snapshot, rfl, hsnapshot⟩ := Option.map_eq_some_iff.mp hcore
        refine .insert (hkept hsame) ?_
        rw [hc]
        exact h.noted (Prod.ext_iff.mp hsnapshot).1 fun hd => hoff hd core ((hsame job.id).symm.trans hc)

theorem upsert (command : Proto.UpsertJob) :
    Wp env R ok must (Remote.upsert factory policy state command)
      (fun result a' => J.Holds (recordsAfter state result) a') a := by
  refine wp_checked (fun _ => ha) fun _ _ => wp_checked (fun _ => ha) fun _ _ =>
    wp_checked (fun _ => ha) fun job hjob => wp_andThen (wp_andThen ?_)
  obtain ⟨hdefinition, henabled, -⟩ := compileChecked_ok hjob
  rw [← hdefinition] at henabled
  refine Client.wp_mono (fun result a' (hr : Upserted J state job result a') => ?_) ?_
  · cases result with
    | error => exact answer_error rfl (answer_error rfl hr)
    | ok => exact answer_ok rfl (answer_ok rfl hr)
  · split
    · rename_i current hget
      exact h.upsertExisting ha hget henabled
    · rename_i hget
      exact h.upsertNew ha hget henabled

theorem delete (command : Proto.DeleteJob) :
    Wp env R ok must (Remote.delete state command)
      (fun result a' => J.Holds (recordsAfter state result) a') a := by
  refine wp_checked (fun _ => ha) fun _ _ => wp_checked (fun _ => ha)
    fun ⟨id, current⟩ hmanaged => wp_onScheduler fun found hR _ => ?_
  have hfound := h.found h.known hR ha
  have hhere : J id (some current) (found.coreOf id) found.panicked :=
    (expectManaged_ok hmanaged).2 ▸ hfound id
  refine ⟨h.fenced hhere ⟨rfl, rfl⟩, ?_⟩
  rcases serve_delete env found id current.generation with
    ⟨-, ⟨e, he⟩, hsame⟩ | ⟨core, -, -, hok, hset⟩
  · exact answer_error he (h.same hsame hfound)
  · exact answer_ok hok (h.removed hset hfound)

theorem runNow (command : Proto.RunJobNow) :
    Wp env R ok must (Remote.runNow policy state command)
      (fun result a' => J.Holds (recordsAfter state result) a') a := by
  refine wp_checked (fun _ => ha) fun ⟨id, current⟩ hmanaged => wp_checked (fun _ => ha) fun _ _ =>
    wp_onScheduler fun found hR _ => ?_
  have hfound := h.found h.known hR ha
  have hhere : J id (some current) (found.coreOf id) found.panicked :=
    (expectManaged_ok hmanaged).2 ▸ hfound id
  refine ⟨h.fenced hhere ⟨rfl, rfl⟩, ?_⟩
  rcases serve_update env found id current.generation { reschedule := .runNow } with
    ⟨-, ⟨e, he⟩, hsame⟩ | ⟨core, snapshot, -, hat, hok, -, hv, -, hset⟩
  · exact answer_error he (h.same hsame hfound)
  · refine answer_ok hok (h.set hset
      (fun id' hne => (get_insert _ _ _ _).trans (if_neg hne)) (fun id' _ => hfound id') ?_)
    rw [hat.1] at hhere
    show J id ((state.remoteJobs.insert id _).get id) _ _
    rw [get_insert, if_pos rfl, hv]
    exact h.dies serve_alive (h.touched ⟨_, core.state, current.generation + 1⟩ hhere hat.2 rfl)

theorem replaceAll (command : Proto.ReplaceAllJobs) :
    Wp env R ok must (Remote.replaceAll factory policy state command)
      (fun result a' => J.Holds (recordsAfter state result) a') a := by
  refine wp_checked (fun _ => ha) fun _ _ => wp_checked (fun _ => ha) fun jobs hjobs =>
    wp_onScheduler fun found hR _ => ⟨h.listed (h.found h.known hR ha), ?_⟩
  replace ha : J.Holds state.remoteJobs (serve env found .list).2 := by
    rcases serve_list env found with ⟨-, -, hsame⟩ | ⟨-, hsame, -⟩ <;>
      exact h.same hsame (h.found h.known hR ha)
  refine ⟨fun _ _ => ha, fun snapshots _ => wp_checked (fun _ => ha) fun _ _ =>
    wp_checked (fun _ => ha) fun _ _ => wp_onScheduler fun found hR _ => ⟨h.unfenced trivial, ?_⟩⟩
  replace ha : J.Holds state.remoteJobs (serve env found .getConfig).2 := by
    rcases serve_getConfig env found with ⟨-, -, hsame⟩ | ⟨-, hsame, -⟩ <;>
      exact h.same hsame (h.found h.known hR ha)
  refine ⟨fun _ _ => ha, fun _ _ => wp_checked (fun _ => ha) fun _ _ => wp_checked (fun _ => ha)
    fun plan hplan => wp_onScheduler fun found hR hok => ?_⟩
  have hfound := h.found h.known hR ha
  refine ⟨h.planned hfound hplan, ?_⟩
  rcases serve_reconcile_completes (h.unbroken hok) with
    ⟨⟨e, he⟩, hsame⟩ | ⟨applied, b, hok, happlied, hsame, hv⟩
  · exact answer_error he (h.same hsame hfound)
  · refine answer_ok hok ?_
    -- once the plan is carried out, the record can be written
    obtain ⟨records, hrecord⟩ := recordApplied_planned state hplan fun id hid => by
      rw [hv id hid, Option.isSome_map]
      exact happlied.there hid
    obtain ⟨hnodup, -, -, henabled⟩ := compileAll_ok hjobs
    rw [hrecord]
    exact h.carriedOut hfound ⟨plan, hnodup, hplan, happlied, hv, hrecord⟩
      (fun job hjob => (henabled job hjob).1) hsame

/-- **Every command** keeps the condition. -/
theorem applyAction (action : Option Proto.Action) :
    Wp env R ok must (Remote.applyAction factory policy state action)
      (fun result a' => J.Holds (recordsAfter state result) a') a := by
  unfold Remote.applyAction
  split
  · exact h.upsert ha _
  · exact h.delete ha _
  · exact h.runNow ha _
  · exact h.replaceAll ha _
  · exact ha

end ActionRule

/-! ## 4. Acts -/

/-- The actor's own messages and the requests of an act keep to the rules, those of the loops to
    rules of their own. -/
def Act.Guarded (env : Env) (quiet : SchedulerActor → Internal → Prop)
    (ok okLoop : SchedulerActor → Command → Prop) (s : Agent) : Act → Prop
  | .internal message => quiet s.scheduler message
  | .command factory sent script =>
    Client.Guarded (serve env) (internalTurn env) quiet ok
      (applyCommand factory s.policy s.controller sent) script s.scheduler
  | .updatePolicy change persist script =>
    Client.Guarded (serve env) (internalTurn env) quiet okLoop
      (Remote.updatePolicy s.policy s.controller change persist) script s.scheduler
  | .pausePlugin plugin script =>
    Client.Guarded (serve env) (internalTurn env) quiet okLoop
      (Remote.pausePlugin s.controller plugin) script s.scheduler
  | .clearRemoteJobs script =>
    Client.Guarded (serve env) (internalTurn env) quiet okLoop
      (Remote.clearRemoteJobs s.controller) script s.scheduler
  | .resumePlugin _ | .rehash _ => True

/-- **One act** keeps the condition. -/
theorem ActionRule.step {okLoop must : SchedulerActor → Command → Prop}
    {quiet : SchedulerActor → Internal → Prop} {s : Agent}
    (h : ActionRule env R ok must mine s.controller J)
    (hquiet : ∀ a messages, Along (internalTurn env) quiet a messages →
      R a (run (internalTurn env) a messages))
    (ha : J.Holds s.controller.remoteJobs s.scheduler) (act : Act)
    (hg : act.Guarded env quiet ok okLoop s) :
    J.Holds (s.step env act).controller.remoteJobs (s.step env act).scheduler := by
  cases act with
  | internal message => exact h.found h.known (hquiet s.scheduler [message] ⟨hg, trivial⟩) ha
  | command _ command =>
    exact Client.exec_of_wp hquiet (wp_applyCommand ha (h.applyAction ha command.action)) hg
  | updatePolicy =>
    exact Client.exec_of_wp hquiet
      (wp_updatePolicy (fun jobs => h.disableAll policyReason jobs s.controller h.known ha) ha) hg
  | pausePlugin =>
    exact Client.exec_of_wp hquiet
      (wp_pausePlugin (fun jobs => h.disableAll pauseReason jobs s.controller h.known ha) ha) hg
  | resumePlugin => exact ha
  | clearRemoteJobs =>
    exact Client.exec_of_wp hquiet (h.deleteAll _ s.controller h.known ha) hg
  | rehash entries =>
    intro id
    show J id ((s.controller.rehash entries).remoteJobs.get id) _ _
    rw [get_rehash]
    exact ha id

end Smalux.Remote
