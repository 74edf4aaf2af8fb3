/-
  Subject:   The safety limits of the configuration and the Jobs that are enabled.

  Limits are checked when a Job is added or updated, and a change of the configuration disables the
  Jobs that violate the new ones. `enable_job` checks nothing: a Job that was off when the limits
  were tightened comes back with its old trigger.

  * `LimitsHold` -- every enabled Job passes the checks under the current configuration;
  * `LimitsGuard` -- no Job that violates the limits is enabled, and none that a change of them
    has to disable is at the last version;
  * `limits_hold_while_guarded` -- then they hold throughout;
  * **`running_within_bound`** -- the global limit, in every run.
-/
import Smalux.Scheduler.Calm
import Smalux.Scheduler.Slots

namespace Smalux.Scheduler

open Lib SchedulerActor List

variable {job : JobEntry} {jobId : JobId}

/-! ## 1. The limits -/

/-- The checks of a Job with these settings. -/
def JobSettings.Within (env : Env) (config : SchedulerConfig) (s : JobSettings) : Prop :=
  validateTrigger env.croner s.trigger
      ⟨s.concurrency, s.maxPending, s.priority, some s.coalescing, some s.capacity, s.retry, s.failure⟩
      config = .ok () ∧
    validateTaskCancellationMode s.trigger s.cancellationMode = .ok ()

/-- **Every enabled Job passes its checks** under the current configuration. -/
def LimitsHold (env : Env) (a : SchedulerActor) : Prop :=
  ∀ id job, a.jobs.get id = some job → job.state = .enabled →
    validateTrigger env.croner job.trigger (jobOptionsFromEntry job) a.config = .ok () ∧
      validateTaskCancellationMode job.trigger job.cancellationMode = .ok ()

variable {env : Env} {a a' : SchedulerActor}

theorem violatesLimits_eq_false_iff :
    a.violatesLimits env job = false ↔ job.settings.Within env a.config := by
  have hok : ∀ x : Except SchedulerError Unit, (!x.isOk) = false ↔ x = .ok () := fun x => by
    cases x <;> simp [Except.isOk, Except.toBool]
  rw [violatesLimits, Bool.or_eq_false_iff, hok, hok]
  exact Iff.rfl

/-- A new Job passed its checks with the options it was given; those it ends up with are the
    same. -/
theorem JobSettings.within_fresh {trigger : Trigger} {task : TaskBinding} {options : JobOptions}
    {config : SchedulerConfig} (ht : validateTrigger env.croner trigger options config = .ok ())
    (hm : validateTaskCancellationMode trigger task.cancellationMode = .ok ()) :
    (JobSettings.fresh trigger task options).Within env config := by
  obtain ⟨hp, hs, hf, hr⟩ := validateTrigger_ok env.croner ht
  refine ⟨validateTrigger_of env.croner hp hs ?_ hr, hm⟩
  rw [← hf]
  exact validateMisfire_congr rfl

/-- An update passed them with the settings it leads to. -/
theorem within_updatedEntry {b : SchedulerActor} {version : Nat} {patch : JobPatch}
    {plan : JobUpdatePlan} (h : a.planJobUpdate env jobId version patch = .ok plan)
    (hj : a.jobs.get jobId = some job) :
    (b.updatedEntry env jobId patch plan job).settings.Within env a.config := by
  obtain ⟨job', hj', -, -, -, -, -, ht, hm⟩ := planJobUpdate_ok env h
  rw [hj] at hj'
  cases hj'
  rw [settings_updatedEntry]
  exact ⟨ht, hm⟩

/-! ## 2. What keeps them -/

namespace LimitsHold

/-- A Job that is calmed is as it was, or off. -/
theorem calm (h : LimitsHold env a) (hc : a'.config = a.config) (hcalm : Calm a a') :
    LimitsHold env a' := by
  intro id job' hj' hs'
  obtain ⟨c, hcore, hs, hsettings, -⟩ := hcalm.enabled (coreOf_of_get hj') hs'
  obtain ⟨job, hj, rfl⟩ := coreOf_eq_some_iff.mp hcore
  have hin : job.settings.Within env a.config := h id job hj hs
  rw [hc]
  exact hsettings.symm.subst (motive := JobSettings.Within env a.config) hin

/-- One Job is another one, which passes its checks if it is enabled. -/
theorem replace (h : LimitsHold env a) (hc : a'.config = a.config)
    (hother : ∀ id, id ≠ jobId → a'.jobs.get id = a.jobs.get id)
    (hself : ∀ job, a'.jobs.get jobId = some job → job.state = .enabled →
      job.settings.Within env a.config) : LimitsHold env a' := by
  intro id job hj hs
  by_cases hid : id = jobId
  · subst hid
    rw [hc]
    exact hself job hj hs
  · rw [hc]
    exact h id job (hother id hid ▸ hj) hs

theorem commitEnable (h : LimitsHold env a) (hj : a.jobs.get jobId = some job)
    (hin : job.settings.Within env a.config) (version : Nat) (now next : DateTime) :
    LimitsHold env ((a.dropWork jobId).tick.commitEnable env jobId version now next) := by
  have hget := get_commitEnable env (a.dropWork jobId).tick jobId version now next
  refine h.replace (config_scheduleNormal env _ _ _ _) (fun id hne => (hget id).trans (if_neg hne))
    fun job' hj' _ => ?_
  rw [hget, if_pos rfl, show (a.dropWork jobId).tick.jobs.get jobId = some job from hj] at hj'
  rw [← Option.some.inj hj']
  exact hin

end LimitsHold

/-- The command changes no limits and is not one to enable a Job: a plan enables a Job only after
    an update that passed its checks. -/
theorem limitsRule {command : Command} (hconfig : ∀ r patch, command ≠ .updateConfig r patch)
    (henable : ∀ id version, command ≠ .enable id version) :
    CommandRule env a command fun b => b.config = a.config ∧ LimitsHold env b where
  silent := fun config _ _ _ h hc => by
    rcases hc with rfl | ⟨-, r, patch, heq⟩
    · exact h
    · exact absurd heq (hconfig r patch)
  announce := fun _ h => h
  install := fun {b id generation} enabled trigger task options now firstRun _ _ ht hm h => by
    have hc := config_installJob env b id (newEntry generation enabled trigger task options now)
      enabled firstRun
    refine ⟨hc.trans h.1, h.2.replace hc
      (fun id' hne => (get_installJob env b _ _ _ _ _).trans (if_neg hne)) fun job hj _ => ?_⟩
    rw [get_installJob, if_pos rfl] at hj
    have hsettings : job.settings = .fresh trigger task options := by
      rw [← Option.some.inj hj]
      split <;> rfl
    rw [hsettings]
    exact JobSettings.within_fresh ht hm
  update := fun {b id job version patch plan} _ hplan hj h => by
    have hget := get_commitUpdate env (a := b.tick) patch plan hj
    have hc := config_commitUpdate env b.tick id patch plan job
    refine ⟨hc.trans h.1, h.2.replace hc (fun id' hne => (hget id').trans (if_neg hne))
      fun job' hj' _ => ?_⟩
    rw [hget, if_pos rfl] at hj'
    rw [← Option.some.inj hj']
    exact within_updatedEntry hplan hj
  drop := fun _ _ _ h => h
  enable := fun {b id job} next _ hwhy hj _ _ h => by
    refine ⟨(config_scheduleNormal env _ _ _ _).trans h.1, h.2.commitEnable hj ?_ _ _ next⟩
    rcases hwhy with heq | ⟨c, old, version, patch, plan, hplan, hold, rfl⟩
    · exact absurd heq (henable id _)
    · have hin := within_updatedEntry (b := c.tick) hplan hold
      rw [get_commitUpdate env (a := c.tick) patch plan hold, if_pos rfl] at hj
      rw [← Option.some.inj hj, config_commitUpdate]
      exact hin
  disable := fun {b id job} reason _ hj _ h => ⟨h.1, h.2.calm rfl (.commitDisable id job reason hj)⟩
  delete := fun {b id job} _ _ h =>
    ⟨(config_commitDelete env b id job true).trans h.1,
      h.2.calm (config_commitDelete env b id job true) (.commitDelete id job true)⟩

/-! ## 3. New limits -/

/-- A Job that is disabled is off, unless it had reached the last version; the rest is calmed. -/
theorem forceDisable_calm (env : Env) (a : SchedulerActor) (jobId : JobId) (reason : String) :
    Calm a (a.forceDisable env jobId reason).2 ∧
      (a.forceDisable env jobId reason).2.config = a.config ∧
      ∀ core, (a.forceDisable env jobId reason).2.coreOf jobId = some core →
        core.state = .enabled → u64Max ≤ core.version := by
  rcases forceDisable_cases env a jobId reason with ⟨he, hlast⟩ | ⟨job, hj, -, he⟩ <;> rw [he]
  · refine ⟨.refl a, rfl, fun core hcore _ => ?_⟩
    obtain ⟨job, hj, rfl⟩ := coreOf_eq_some_iff.mp hcore
    exact hlast job hj
  · refine ⟨.commitDisable jobId job reason hj, rfl, fun core hcore hs => ?_⟩
    rw [coreOf, get_commitDisable, if_pos rfl, hj] at hcore
    rw [← Option.some.inj hcore] at hs
    cases hs

/-- The same for each of several Jobs. -/
theorem forceDisableAll_calm (env : Env) (reason : String) :
    ∀ (jobIds : List JobId) (a : SchedulerActor), Calm a (a.forceDisableAll env reason jobIds) ∧
      (a.forceDisableAll env reason jobIds).config = a.config ∧
      ∀ id ∈ jobIds, ∀ core, (a.forceDisableAll env reason jobIds).coreOf id = some core →
        core.state = .enabled → u64Max ≤ core.version
  | [], a => ⟨.refl a, rfl, fun id hid => absurd hid not_mem_nil⟩
  | jobId :: rest, a => by
    obtain ⟨hcalm, hc, hoff⟩ := forceDisable_calm env a jobId reason
    obtain ⟨hcalm', hc', hoff'⟩ :=
      forceDisableAll_calm env reason rest (a.forceDisable env jobId reason).2
    refine ⟨hcalm.trans hcalm', hc'.trans hc, fun id hid core hcore hs => ?_⟩
    rcases mem_cons.mp hid with rfl | hid
    · -- what is disabled first stays so
      obtain ⟨core₁, hcore₁, hs₁, -, hversion⟩ := hcalm'.enabled hcore hs
      exact hversion ▸ hoff core₁ hcore₁ hs₁
    · exact hoff' id hid core hcore hs

/-- **New limits**: the Jobs that violate them are off, if they could be switched off. -/
theorem LimitsHold.updateConfig (h : LimitsHold env a) (expectedRevision : Nat)
    (patch : SchedulerConfigPatch) (hlast : ∀ e ∈ a.jobs.entries, e.2.state = .enabled →
      ({ a with config := applyConfigPatch a.config patch }).violatesLimits env e.2 = true →
      e.2.version < u64Max) :
    LimitsHold env (a.updateConfig env expectedRevision patch).2 := by
  unfold SchedulerActor.updateConfig
  split
  · exact h
  · split
    · exact h
    · split
      · exact h
      · rename_i revision _
        let b : SchedulerActor :=
          { a with configRevision := revision, config := applyConfigPatch a.config patch }
        obtain ⟨hcalm, hc, hoff⟩ := forceDisableAll_calm env
          "scheduler safety limits changed"
          ((b.jobs.entries.filter fun e => b.violatesLimits env e.2).map Prod.fst) b
        intro id job' hj' hs'
        have hcore' := coreOf_of_get hj'
        obtain ⟨core, hcore, hs, hsettings, hversion⟩ := hcalm.enabled hcore' hs'
        obtain ⟨job, hj, rfl⟩ := coreOf_eq_some_iff.mp hcore
        have hmem := Table.get_eq_some_iff.mp hj
        have hin : job.settings.Within env b.config := by
          refine violatesLimits_eq_false_iff.mp ((Bool.not_eq_true _).mp fun hviolates => ?_)
          have hnamed : id ∈ (b.jobs.entries.filter fun e => b.violatesLimits env e.2).map
              Prod.fst := mem_map.mpr ⟨(id, job), mem_filter.mpr ⟨hmem, hviolates⟩, rfl⟩
          have hmax := hoff id hnamed job'.core hcore' hs'
          have hlt : job.core.version < u64Max := hlast (id, job) hmem hs hviolates
          omega
        rw [← hc] at hin
        exact hsettings.symm.subst (motive := JobSettings.Within env _) hin

/-! ## 4. Runs -/

/-- **The condition**: a Job that is enabled does not violate the limits, and no enabled Job that a
    change of them would disable is at the last version. -/
def LimitsGuard (env : Env) (a : SchedulerActor) : Message → Prop
  | .command (.enable jobId version) =>
    ∀ job ∈ a.jobs.get jobId, job.version = version → job.state ≠ .enabled →
      a.violatesLimits env job = false
  | .command (.updateConfig _ patch) =>
    ∀ e ∈ a.jobs.entries, e.2.state = .enabled →
      ({ a with config := applyConfigPatch a.config patch }).violatesLimits env e.2 = true →
      e.2.version < u64Max
  | _ => True

instance LimitsGuard.decidable (env : Env) (a : SchedulerActor) :
    ∀ message, Decidable (LimitsGuard env a message)
  | .command (.enable jobId version) =>
    inferInstanceAs (Decidable (∀ job ∈ a.jobs.get jobId, job.version = version → _))
  | .command (.updateConfig _ _) =>
    inferInstanceAs (Decidable (∀ e ∈ a.jobs.entries, _ → _ → _))
  | .command (.add ..) | .command (.update ..) | .command (.get _) | .command .list
  | .command (.disable ..) | .command (.delete ..) | .command (.reconcile _)
  | .command .getConfig | .completion .. | .joinError _ | .expired _ | .maintenance | .rehash _ =>
    .isTrue trivial

theorem LimitsHold.command (h : LimitsHold env a) (command : Command)
    (hg : LimitsGuard env a (.command command)) :
    LimitsHold env (a.handleCommand env command).2 := by
  have hrule : (∀ r patch, command ≠ .updateConfig r patch) →
      (∀ id version, command ≠ .enable id version) →
      LimitsHold env (a.handleCommand env command).2 := fun hconfig henable =>
    ((limitsRule hconfig henable).handleCommand ⟨rfl, h⟩).2
  cases command with
  | updateConfig expectedRevision patch => exact h.updateConfig expectedRevision patch hg
  | enable jobId version =>
    have hres := enableJob_result env a jobId version
    show LimitsHold env (a.enableJob env jobId version).2
    generalize a.enableJob env jobId version = r at hres
    cases hres with
    | refused | already | dropped => exact h
    | enabled job entry next hj hv hs =>
      refine h.commitEnable hj (violatesLimits_eq_false_iff.mp ?_) _ _ next
      exact hg job hj hv hs
  | add | update | get | list | disable | delete | reconcile | getConfig =>
    exact hrule (fun _ _ heq => by cases heq) fun _ _ heq => by cases heq

theorem LimitsHold.turn (h : LimitsHold env a) (message : Message) (hg : LimitsGuard env a message) :
    LimitsHold env (a.turn env message) := by
  cases message with
  | command command =>
    exact turn_keeps (LimitsHold env) (h.command command hg)
      (fun b hb => hb.calm (config_settle env b) (.of_eq (settle_core b))) h
  | completion | joinError | expired | maintenance | rehash =>
    exact h.calm (config_turn env a rfl) (calm_turn env a rfl)

/-- **The safety limits hold for every enabled Job**, in every state of every run that meets the
    condition. -/
theorem limits_hold_while_guarded (env : Env) (config : SchedulerConfig) (messages : List Message)
    (h : Along (turn env) (LimitsGuard env) (start env config) messages) :
    Throughout (turn env) (LimitsHold env) (start env config) messages :=
  throughout_of_invariant (fun _ message hi hg => hi.turn message hg) (fun _ hi => hi)
    (fun _ _ hj => by cases hj) h

section Runs

/-- A Job that runs every second is switched off, and an interval must now be a minute. -/
def tightened : List Message :=
  [.command (.add (some 1) 1 true everySecond poll {}),
   .command (.disable 1 1 "not now"),
   .command (.updateConfig 0 { minimumInterval := some (60 * 10 ^ 9) })]

/-- It gets a longer interval before it is enabled. -/
def slowedDown : List Message :=
  tightened ++ [.command (.update 1 3 { trigger := some ⟨.interval (60 * 10 ^ 9) none, .skip, none⟩ }),
    .command (.enable 1 4)]

theorem limits_hold_slowed_down :
    Along (turn .still) (LimitsGuard .still) (start .still twoSlots) slowedDown ∧
      Throughout (turn .still) (LimitsHold .still) (start .still twoSlots) slowedDown := by
  have h : Along (turn .still) (LimitsGuard .still) (start .still twoSlots) slowedDown := by
    decide +kernel
  exact ⟨h, limits_hold_while_guarded .still twoSlots slowedDown h⟩

/-- **Enabled again as it was, it runs every second.** -/
theorem enabled_against_limits : validateConfig twoSlots = .ok () ∧
      ¬ LimitsHold .still (after .still twoSlots (tightened ++ [.command (.enable 1 3)])) := by
  refine ⟨by decide, fun h => ?_⟩
  have hjob : ((after .still twoSlots (tightened ++ [.command (.enable 1 3)])).jobs.get 1).map
      (fun job => (job.state, (after .still twoSlots (tightened ++
        [.command (.enable 1 3)])).violatesLimits .still job)) = some (.enabled, true) := by
    decide +kernel
  obtain ⟨job, hj, heq⟩ := Option.map_eq_some_iff.mp hjob
  have hno := violatesLimits_eq_false_iff.mpr (h 1 job hj (congrArg Prod.fst heq))
  exact Bool.false_ne_true (hno.symm.trans (congrArg Prod.snd heq))

end Runs

/-! ## 5. The global limit -/

/-- The counter says how many executions run, and they are at most `bound`. -/
structure AtMost (env : Env) (bound : Nat) (m : Machine) : Prop where
  runs : RunsOnce env m
  total : m.actor.totalRunning = m.actor.running.len
  le : m.actor.totalRunning ≤ bound

section AtMost

variable {bound : Nat} {m m' : Machine} {kind : StepKind}

theorem AtMost.step (h : AtMost env bound m) (hstep : Step env kind m m')
    (hb : kind = .start → (m.actor.config.globalConcurrency : Nat) ≤ bound) :
    AtMost env bound m' := by
  obtain ⟨hruns, htotal, hle⟩ := h
  suffices hm' : m'.actor.totalRunning = m'.actor.running.len ∧ m'.actor.totalRunning ≤ bound from
    ⟨hruns.step hstep, hm'.1, hm'.2⟩
  cases slotChange_of_step hstep with
  | kept hk | installed _ _ _ _ _ hk =>
    rw [hk.total, hk.len]
    exact ⟨htotal, hle⟩
  | started p job hk hp hj ht hr =>
    subst hk
    cases hstep with
    | start _ _ _ _ _ _ hg =>
      constructor
      · rw [ht, htotal, hr, Table.len_eq_sumBy, Table.len_eq_sumBy,
          Table.sumBy_insert_new (hruns.not_running_of_queued hp)]
      · have := hb rfl
        omega
  | finished task hm ht hr =>
    obtain ⟨e, he, -⟩ := Option.map_eq_some_iff.mp (hruns.tasks task hm)
    have hsum := Table.sumBy_remove he fun _ => 1
    rw [← Table.len_eq_sumBy, ← Table.len_eq_sumBy, ← hr] at hsum
    constructor <;> omega

/-- Only `dispatch_ready` starts executions, under the configuration the turn ends with. -/
theorem AtMost.turn (h : AtMost env bound (.idle a)) (message : Message)
    (hb : ((a.turn env message).config.globalConcurrency : Nat) ≤ bound) :
    AtMost env bound (.idle (a.turn env message)) := by
  have hhandle : AtMost env bound (.idle (a.handle env message)) :=
    (handle_steps message fun _ hk => hk.start : Steps env (· ≠ .start) _ _).keep (AtMost env bound)
      (fun _ _ _ hk hs hi => hi.step hs fun he => absurd he hk) h
  unfold SchedulerActor.turn at hb ⊢
  split
  · exact h
  · dsimp only at hb ⊢
    split
    · exact hhandle
    · rw [if_neg ‹_›, if_neg ‹_›, config_settle] at hb
      have hsettle : Steps env (· ≠ .configure) _ _ :=
        settle_steps (by simp) (by simp) (by simp) (a.handle env message)
      refine (hsettle.keep
        (fun m => AtMost env bound m ∧ (m.actor.config.globalConcurrency : Nat) ≤ bound)
        (fun _ _ _ hk hs hi => ?_) ⟨hhandle, hb⟩).1
      exact ⟨hi.1.step hs fun _ => hi.2, by rw [hs.config_eq hk]; exact hi.2⟩

end AtMost

/-- **The global limit holds**: in every run in which no configuration allows more than `bound`
    executions at a time, never more are running, and the counter knows how many. -/
theorem running_within_bound (env : Env) (config : SchedulerConfig) (messages : List Message)
    (bound : Nat) (h : Along (turn env) (fun a message =>
      ((a.turn env message).config.globalConcurrency : Nat) ≤ bound) (start env config) messages) :
    Throughout (turn env) (fun a => a.totalRunning = a.running.len ∧ a.running.len ≤ bound)
      (start env config) messages :=
  throughout_of_invariant (fun _ message (hi : AtMost env bound (.idle _)) hb => hi.turn message hb)
    (fun _ hi => ⟨hi.total, hi.total ▸ hi.le⟩) ⟨.initial config, rfl, Nat.zero_le _⟩ h

theorem two_slots_within_bound :
    Throughout (turn .still) (fun a => a.totalRunning = a.running.len ∧ a.running.len ≤ 2)
      (start .still twoSlots) reinstalledEarly :=
  running_within_bound .still twoSlots reinstalledEarly 2 (by decide +kernel)

end Smalux.Scheduler
