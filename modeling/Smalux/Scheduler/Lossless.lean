/-
  Subject:   Which runs lose no work: what waits is started, unless its Job is given up.

  A turn moves work: timers expire and become executions, held-back executions return to the queue,
  queued ones start. `Continues` says what a piece of work may turn into on the way. A resource-only
  update breaks the chain: it drops the Job's retry timers and a waiting requested run, and the
  failure of an attempt that ran across it is ignored.

  * `Kept` -- a command, or the result of an execution, keeps the work or gives its Job up;
  * `Alive` -- so does each timer of an expired batch;
  * `Lossless`, `RetriesKept` -- what a turn must do;
  * **`work_is_not_lost`** -- every turn does, in every run in which resource-only updates meet no
    such timer, failures to be retried are of the current version, and one-shot Jobs are completed
    when they own nothing.
-/
import Smalux.Scheduler.CleanSlate
import Smalux.Scheduler.Instances
import Smalux.Scheduler.Slots

namespace Smalux.Scheduler

open Lib SchedulerActor Table List Nat

variable {env : Env} {a a' a'' : SchedulerActor} {replaced : JobId → Bool} {w : Work}
  {x : Nat × TimerEntry} {rest : List (Nat × TimerEntry)} {f : JobEntry → JobEntry} {job : JobEntry}
  {w' : Work} {runId : RunId} {scheduledAt : DateTime} {attempt : Nat} {runNow : Bool}
  {e : TimerEntry}

/-! ## 1. Events and run ids only grow -/

structure Onward (a a' : SchedulerActor) : Prop where
  events : a.events <:+ a'.events
  issued : a.issued ≤ a'.issued

namespace Onward

theorem refl (a : SchedulerActor) : Onward a a := ⟨suffix_refl _, le_refl _⟩

theorem trans (h : Onward a a') (h' : Onward a' a'') : Onward a a'' :=
  ⟨h.events.trans h'.events, h.issued.trans h'.issued⟩

theorem alike (h : WorkAlike a a') : Onward a a' := ⟨h.events, h.issued.ge⟩

theorem touches {id : JobId} (h : Touches env id a a') : Onward a a' :=
  ⟨h.grows, (FewerRuns.touches h).issued.ge⟩

theorem spawnExecution (p : PendingExecution) : Onward a (a.spawnExecution env p) := by
  unfold SchedulerActor.spawnExecution
  split
  · exact refl a
  · split
    · exact refl a
    · exact ⟨suffix_cons _ _, le_refl _⟩

theorem installJob (a : SchedulerActor) (id : JobId) (entry : JobEntry) (enabled : Bool)
    (firstRun : DateTime) : Onward a (a.installJob env id entry enabled firstRun) :=
  have htouches := touches (Touches.installJob a id entry enabled firstRun)
  ⟨htouches.events, htouches.issued⟩

theorem step {kind : StepKind} {m m' : Machine} (h : Step env kind m m') :
    Onward m.actor m'.actor := by
  cases h with
  | emit | retry => exact ⟨suffix_cons _ _, le_refl _⟩
  | draw => exact ⟨suffix_refl _, le_succ _⟩
  | start _ p ready =>
    have hspawn : Onward { m.actor with ready := ready }
        (({ m.actor with ready := ready }).spawnExecution env p) := spawnExecution p
    exact ⟨hspawn.events, hspawn.issued⟩
  | scheduleNormal _ jobId runAt kind hk => exact touches ((Touches.refl _).scheduleNormal runAt hk)
  | disable => exact touches (.commitDisable _ _ _ _ _)
  | update _ jobId job patch plan hj => exact touches (.commitUpdate patch plan hj)
  | enable => exact touches (.commitEnable _ _ _ _ _)
  | delete => exact touches (.commitDelete _ _ _ _)
  | install _ jobId generation enabled trigger task options now firstRun =>
    exact ⟨(installJob m.actor jobId _ enabled firstRun).events,
      (installJob m.actor jobId _ enabled firstRun).issued⟩
  | silent | configure | cancel | expire | ignore | fire | fireRetry | clearRetries | queue | block | drop
  | shrinkReady | dropReplaceable | unblock | finish | lose | forget | succeed | fail | complete
  | rehash => exact ⟨suffix_refl _, le_refl _⟩

theorem steps {ok : StepKind → Prop} {m m' : Machine} (h : Steps env ok m m') :
    Onward m.actor m'.actor :=
  h.keep (fun m' => Onward m.actor m'.actor) (fun _ _ _ _ hs hi => hi.trans (step hs)) (refl _)

end Onward

/-! ## 2. Commands and results -/

/-- If the work waits in `a`, it still waits in `a'`, or its Job was given up on the way. -/
structure Survives (replaced : JobId → Bool) (w : Work) (a a' : SchedulerActor) : Prop where
  onward : Onward a a'
  work : Waits a w → Waits a' w ∨ Abandoned replaced a a' w.jobId

namespace Survives

theorem refl (a : SchedulerActor) : Survives replaced w a a := ⟨.refl a, .inl⟩

theorem trans (h : Survives replaced w a a') (h' : Survives replaced w a' a'') :
    Survives replaced w a a'' where
  onward := h.onward.trans h'.onward
  work := fun hw => by
    rcases h.work hw with hw | hgone
    · exact (h'.work hw).imp_right fun hgone => hgone.earlier h.onward.events h'.onward.events
    · exact .inr (hgone.later h.onward.events h'.onward.events)

theorem alike (hs : WorkAlike a a') : Survives replaced w a a' :=
  ⟨.alike hs, fun hw => .inl (hw.alike hs)⟩

theorem modifyJob {id : JobId}
    (hf : ∀ job, (f job).trigger = job.trigger ∧ (f job).blocked = job.blocked) :
    Survives replaced w a (a.modifyJob id f) :=
  ⟨⟨suffix_refl _, le_refl _⟩, fun hw => .inl (hw.modifyJob hf)⟩

end Survives

/-- The state of the actor after a part of what a command does. -/
structure Kept (replaced : JobId → Bool) (w : Work) (start a : SchedulerActor) : Prop where
  tidy : Tidy a
  survives : Survives replaced w start a

namespace Kept

variable {start : SchedulerActor}

theorem next (h : Kept replaced w start a) (ht : Tidy a') (hg : Onward a a')
    (hw : Waits a w → Waits a' w ∨ Abandoned replaced a a' w.jobId) : Kept replaced w start a' :=
  ⟨ht, h.survives.trans ⟨hg, hw⟩⟩

theorem alike (h : Kept replaced w start a) (hs : WorkAlike a a') : Kept replaced w start a' :=
  ⟨h.tidy.same hs, h.survives.trans (.alike hs)⟩

theorem commitDisable (h : Kept replaced w start a) {id : JobId} (hj : a.jobs.get id = some job)
    (version : Nat) (reason : String) :
    Kept replaced w start (a.commitDisable env id job version reason) :=
  h.next (h.tidy.commitDisable hj version reason) (.touches (.commitDisable _ _ _ _ _)) fun hk =>
    hk.commitDisable h.tidy hj version reason

theorem commitDelete (h : Kept replaced w start a) {id : JobId} (hj : a.jobs.get id = some job)
    (cancelRunning : Bool) : Kept replaced w start (a.commitDelete env id job cancelRunning) :=
  h.next (h.tidy.commitDelete hj cancelRunning) (.touches (.commitDelete _ _ _ _)) fun hk =>
    hk.commitDelete h.tidy hj cancelRunning

/-- **Every command** keeps the work or gives its Job up, unless it is a resource-only update of a
    Job whose work waits as a retry or a requested run. -/
theorem rule (env : Env) (start : SchedulerActor) (command : Command) (w : Work)
    (hr : ∀ id patch, (id, patch) ∈ command.revises env start →
      (patch.trigger.isSome || patch.task.isSome) = true → replaced id = true)
    (hw : ∀ id patch, (id, patch) ∈ command.revises env start →
      (patch.trigger.isSome || patch.task.isSome) = false → w.jobId = id →
      w = .once id ∨ ∃ r, w = .pending id r) :
    CommandRule env start command (Kept replaced w start) where
  silent := fun _ _ _ _ h _ => h.alike { WorkAlike.refl _ with }
  announce := fun _ h => h.alike (.emit env _ _)
  install := fun enabled trigger task options now firstRun hin hnone hv hm h =>
    h.next ((Tidy.rule env start command).install enabled trigger task options now firstRun hin
        hnone hv hm h.tidy)
      (.installJob _ _ _ enabled firstRun)
      fun hk => .inl (hk.installJob h.tidy hnone _ rfl enabled firstRun)
  update := fun {a id job expectedVersion patch plan} hmem hplan hj h => by
    obtain ⟨job', hj', -, -, hnext, htrigger, htask, -⟩ := planJobUpdate_ok env hplan
    cases hj.symm.trans hj'
    have htick := h.alike (.tick a)
    refine htick.next ((Tidy.rule env start command).update hmem hplan hj h.tidy)
      (.touches (.commitUpdate patch plan hj)) fun hk => ?_
    exact hk.commitUpdate htick.tidy hj htrigger htask (fun hs => planNextRun_some env hs hnext)
      (hr id patch hmem) (hw id patch hmem)
  drop := fun {a id job} _ hj hs h =>
    h.next (h.tidy.dropWork hj hs) ⟨suffix_refl _, le_refl _⟩ fun hk =>
      .inl (hk.dropWork h.tidy (not_enabledJob hj hs))
  enable := fun {a id job} next hm hwhy hj hs hv h => by
    have hoff := not_enabledJob hj hs
    have hdropped : Tidy (a.dropWork id).tick := (h.tidy.dropWork hj hs).same (.tick _)
    refine h.next ((Tidy.rule env start command).enable next hm hwhy hj hs hv h.tidy)
      (.touches (.commitEnable _ _ _ _ _)) fun hk => .inl ?_
    exact ((hk.dropWork h.tidy hoff).alike (.tick _)).commitEnable hdropped hoff _ _ next
  disable := fun reason _ hj _ h => h.commitDisable hj _ reason
  delete := fun _ hj h => h.commitDelete hj true

theorem start_of_tidy (ht : Tidy a) : Kept replaced w a a := ⟨ht, .refl a⟩

end Kept

namespace Survives

theorem forceDisable (ht : Tidy a) (id : JobId) (reason : String) :
    Survives replaced w a (a.forceDisable env id reason).2 := by
  rcases forceDisable_cases env a id reason with ⟨he, -⟩ | ⟨job, hj, -, he⟩
  · rw [he]
    exact refl a
  · rw [he]
    exact ((Kept.start_of_tidy ht).commitDisable hj _ reason).survives

/-- **A result** keeps the work or gives its Job up. -/
theorem rule (env : Env) (replaced : JobId → Bool) (w : Work) (start : SchedulerActor)
    (task : SpawnedTask) (elapsed : Duration) (outcome : CompletionOutcome) :
    ResultRule env start task elapsed outcome
      (fun a => Settling start (task.completion elapsed outcome) a ∧ Survives replaced w start a)
      (Survives replaced w start) := by
  have hrule := Settling.rule env start task elapsed outcome
  exact
    { emit := fun kind hk h => ⟨hrule.emit kind hk h.1, h.2.trans (alike (.emit env _ kind))⟩
      tick := fun h => ⟨hrule.tick h.1, h.2.trans (alike (.tick _))⟩
      panic := fun h => ⟨hrule.panic h.1, h.2.trans (alike (.panic _))⟩
      cancel := fun h => ⟨hrule.cancel h.1, h.2.trans ⟨⟨suffix_refl _, le_refl _⟩,
        fun hw => .inl (hw.frame (fun _ _ _ he => he) (fun _ ho => ho) fun _ _ _ hp => hp)⟩⟩
      succeed := fun hr hc h => ⟨hrule.succeed hr hc h.1, modifyJob fun _ => ⟨rfl, rfl⟩⟩
      fail := fun error count h =>
        ⟨hrule.fail error count h.1, h.2.trans (modifyJob fun _ => ⟨rfl, rfl⟩)⟩
      complete := fun now _ _ _ h => h.2.trans (modifyJob fun _ => ⟨rfl, rfl⟩)
      disable := fun reason _ hj h =>
        h.2.trans ((Kept.start_of_tidy h.1.tidy).commitDisable hj _ reason).survives
      delete := fun _ hj h => h.2.trans ((Kept.start_of_tidy h.1.tidy).commitDelete hj true).survives
      retry := fun runAt hr _ h => h.2.trans ⟨⟨suffix_cons _ _, le_refl _⟩, fun hw =>
        .inl (hw.scheduleRetry (h.1.retry hr).row _ _ _ _)⟩
      done := And.right }

end Survives

/-! ## 3. Expired timers -/

/-- What the work is after its timer expired: an execution, of a new run or of the run that is
    retried. -/
inductive Continues (env : Env) (a : SchedulerActor) : Work → Work → Prop where
  | same (w : Work) : Continues env a w w
  | once (id : JobId) (i : Nat) (h : a.issued ≤ i) :
      Continues env a (.once id) (.pending id (env.runIds i))
  | runNow (id : JobId) (runAt : DateTime) (i : Nat) (h : a.issued ≤ i) :
      Continues env a (.runNow id runAt) (.pending id (env.runIds i))
  | retry (id : JobId) (runId : RunId) (attempt : Nat) (runAt : DateTime) :
      Continues env a (.retry id runId attempt runAt) (.pending id runId)

theorem Continues.jobId (h : Continues env a w w') : w'.jobId = w.jobId := by
  cases h <;> rfl

theorem Continues.earlier (h : Continues env a' w w') (hi : a.issued ≤ a'.issued) :
    Continues env a w w' := by
  cases h with
  | same => exact .same w
  | once id i hle => exact .once id i (hi.trans hle)
  | runNow id runAt i hle => exact .runNow id runAt i (hi.trans hle)
  | retry id runId attempt runAt => exact .retry id runId attempt runAt

section Fresh

variable {m : Machine} {p : PendingExecution}

theorem waiting_pos (h : m.actor.Waiting p) :
    0 < m.actor.queuedRuns p.runId + m.actor.blockedRuns p.runId := by
  rcases h with hq | ⟨job, hj, hin⟩
  · unfold queuedRuns Table.holds
    rw [hq]
    exact lt_of_lt_of_le zero_lt_one (le_add_right _ _)
  · have hcopy : 0 < copies job.blocked p.runId :=
      countP_pos_iff.mpr ⟨p, hin, decide_eq_true rfl⟩
    have hsum := sumBy_remove hj fun job => copies job.blocked p.runId
    unfold blockedRuns
    omega

/-- What waits has been drawn. -/
theorem RunsOnce.ne_drawn (h : RunsOnce env m) (hp : m.actor.Waiting p) {i : Nat}
    (hi : m.actor.issued ≤ i) : env.runIds i ≠ p.runId := by
  intro he
  have hpos := waiting_pos hp
  obtain ⟨j, hj, hr⟩ := h.drawn p.runId (by unfold Machine.places; omega)
  have := env.runIds_injective (hr.trans he.symm)
  omega

/-- A run whose retry timer has expired does not wait. -/
theorem RunsOnce.ne_popped (h : RunsOnce env m) (hp : m.actor.Waiting p) (hx : x ∈ m.popped)
    (hk : x.2.kind = .retry runId scheduledAt attempt) : runId ≠ p.runId := by
  intro he
  have hpos := waiting_pos hp
  have hone := h.once p.runId
  have hpopped : 0 < m.popped.countP fun e => e.2.retries p.runId := by
    refine countP_pos_iff.mpr ⟨x, hx, ?_⟩
    unfold TimerEntry.retries
    rw [hk]
    exact decide_eq_true he
  unfold Machine.places at hone
  omega

theorem waiting_modifyJob {id : JobId} (hf : ∀ job, (f job).blocked = job.blocked)
    (h : (a.modifyJob id f).Waiting p) : a.Waiting p := by
  refine h.imp (fun hq => hq) fun ⟨job, hj, hin⟩ => ?_
  have hget : (a.modifyJob id f).jobs.get p.jobId =
      if p.jobId = id then (a.jobs.get p.jobId).map f else a.jobs.get p.jobId :=
    get_modify a.jobs id p.jobId f
  rw [hget] at hj
  split at hj
  · obtain ⟨job', hj', rfl⟩ := Option.map_eq_some_iff.mp hj
    exact ⟨job', hj', hf job' ▸ hin⟩
  · exact ⟨job, hj, hin⟩

theorem waiting_alike (hs : WorkAlike a a') (h : a'.Waiting p) : a.Waiting p := by
  unfold Waiting Queued at h ⊢
  rw [hs.ready, hs.jobs] at h
  exact h

end Fresh

/-- A one-shot Job and a requested run are due once, whatever the misfire policy. -/
theorem dueSchedule_one (job : JobEntry) {now : DateTime}
    (h : job.trigger.schedule.isOnce = true ∨ runNow = true) :
    ∃ due, a.dueSchedule env job scheduledAt now runNow = .ok due ∧ due.occurrences.length = 1 := by
  unfold dueSchedule
  cases runNow with
  | true => exact ⟨_, rfl, rfl⟩
  | false =>
    have honce := h.resolve_right (by simp)
    unfold dueOccurrences
    rw [if_neg (by simp), if_pos honce]
    exact ⟨_, rfl, rfl⟩

/-- The timer set after an expiry replaces none. -/
theorem waits_next {b b' : SchedulerActor} {id : JobId} {blocked drawn : List PendingExecution}
    (hadm : Admitted b id (clearNormalTimer job) blocked drawn b')
    {p : Prop} (hnext : a' = b' ∧ p ∨ ∃ next, a' = b'.scheduleNormal env id next .normal)
    (hw : Waits b' w) : Waits a' w := by
  rcases hnext with ⟨rfl, -⟩ | ⟨next, rfl⟩
  · exact hw
  · refine hw.scheduleNormal (fun job' hj' => ?_) next .normal
    cases hadm.self.symm.trans hj'
    rfl

theorem handleTimer_onward (env : Env) (a : SchedulerActor) (entry : TimerEntry) (batchId : Nat) :
    Onward a (a.handleTimer env entry batchId) := by
  have hsteps : Steps env (fun _ => True) ⟨a, [(0, entry)], [], []⟩ _ :=
    handleTimer_steps trivial trivial 0 entry batchId fun _ => trivial
  exact .steps hsteps

/-- **One expired timer** keeps the work that waits, or gives its Job up. -/
theorem Survives.handleTimer (ht : Tidy a) (hb : Handed a (x :: rest))
    (hr : RunsOnce env ⟨a, x :: rest, [], []⟩) (batchId : Nat) :
    Survives replaced w a (a.handleTimer env x.2 batchId) := by
  refine ⟨handleTimer_onward env a x.2 batchId, fun hw => ?_⟩
  have hexpiry := expiry env a x.2 batchId
  generalize a.handleTimer env x.2 batchId = a' at hexpiry ⊢
  cases hexpiry with
  | ignored => exact .inl hw
  | retried job runId scheduledAt attempt blocked _ hj hv hs hk hadm =>
    have hforget : Waits { a with retryTimers := a.retryTimers.remove runId } w :=
      hw.frame (fun _ _ _ he => he) (fun _ ho => ho) fun _ _ _ hp => hp
    refine .inl (hforget.admitted (ht.forgetRetry hb hk).tidy hj hadm (fun q hq => ?_)
      fun q hq p hp => ?_)
    · rw [mem_singleton.mp hq]
      rfl
    · rw [mem_singleton.mp hq]
      exact hr.ne_popped hp mem_cons_self hk
  | failed job error hj hv hs hk _ =>
    have hforget := ht.forgetNormal hb hj ⟨rfl, hk⟩
    have htidy : Tidy (a.modifyJob x.2.jobId clearNormalTimer).tick :=
      (ht.moved hforget).same (.tick _)
    have hclear : Survives replaced w a (a.modifyJob x.2.jobId clearNormalTimer) :=
      .modifyJob fun _ => ⟨rfl, rfl⟩
    have htick := hclear.trans (.alike (.tick _))
    exact (htick.trans (.forceDisable htidy x.2.jobId error.text)).work hw
  | fired job due b blocked drawn b' _ hj hv hs hk _ halike hadm _ hdrawn hnext =>
    have hforget := ht.forgetNormal hb hj ⟨rfl, hk⟩
    have htidy : TidyAt b x.2.jobId := (hforget.trans (.same hforget.tidy halike)).tidy
    have hclear : Waits (a.modifyJob x.2.jobId clearNormalTimer) w :=
      hw.modifyJob fun _ => ⟨rfl, rfl⟩
    refine .inl (waits_next hadm hnext ((hclear.alike halike).admitted htidy
      (get_cleared halike hj) hadm
      (fun q hq => (hdrawn q hq).jobId) fun q hq p hp => ?_))
    obtain ⟨i, hi, hid⟩ := (hdrawn q hq).fresh
    have hcleared : (a.modifyJob x.2.jobId clearNormalTimer).Waiting p := waiting_alike halike hp
    have hwaiting : a.Waiting p :=
      waiting_modifyJob (f := clearNormalTimer) (fun _ => rfl) hcleared
    rw [hid]
    exact hr.ne_drawn hwaiting (le_trans (le_of_eq halike.issued.symm) hi)

/-- The Job is Enabled, at the version of the timer. -/
def Current (a : SchedulerActor) (e : TimerEntry) : Prop :=
  ∃ job, a.jobs.get e.jobId = some job ∧ job.version = e.version ∧ job.state = .enabled

theorem TimerOf.of_retry (hw : TimerOf a e w) (hk : e.kind = .retry runId scheduledAt attempt) :
    w = .retry e.jobId runId attempt e.runAt := by
  cases w with
  | once =>
    rcases hw.1.2 with hn | hn <;> rw [hk] at hn <;> cases hn
  | runNow =>
    have hn := hw.2.1
    rw [hk] at hn
    cases hn
  | retry =>
    obtain ⟨hid, ht, s, hn⟩ := hw
    rw [hk] at hn
    cases hn
    rw [hid, ht]
  | pending => exact hw.elim

variable (env) in
/-- A normal timer that is work is due once, and then it is a new execution. -/
theorem TimerOf.of_normal (hw : TimerOf a e w) (hk : e.kind = .normal ∨ e.kind = .runNow)
    (hj : a.jobs.get e.jobId = some job) :
    (job.trigger.schedule.isOnce = true ∨ (e.kind == TimerKind.runNow) = true) ∧
      ∀ i, a.issued ≤ i → Continues env a w (.pending e.jobId (env.runIds i)) := by
  cases w with
  | once =>
    obtain ⟨⟨rfl, -⟩, job', hj', ho⟩ := hw
    cases hj.symm.trans hj'
    exact ⟨.inl ho, .once _⟩
  | runNow id runAt =>
    obtain ⟨rfl, hn, -⟩ := hw
    exact ⟨.inr (by rw [hn]; rfl), .runNow _ runAt⟩
  | retry =>
    obtain ⟨-, -, s, hn⟩ := hw
    rw [hn] at hk
    rcases hk with hk | hk <;> cases hk
  | pending => exact hw.elim

theorem triggerKind_ne_normal {schedule : Schedule} (h : schedule.isOnce = true ∨ runNow = true) :
    triggerKind schedule runNow ≠ .normal := by
  unfold triggerKind
  rcases h with h | h
  · rw [if_pos h]
    simp
  · split <;> simp

variable (env) in
/-- **The work whose timer has expired** goes on as an execution. -/
theorem handleTimer_continues (hc : Current a x.2) (hw : TimerOf a x.2 w) (batchId : Nat) :
    ∃ w', Continues env a w w' ∧ Waits (a.handleTimer env x.2 batchId) w' := by
  obtain ⟨job₀, hj₀, hv₀, hs₀⟩ := hc
  have hexpiry := expiry env a x.2 batchId
  generalize a.handleTimer env x.2 batchId = a' at hexpiry ⊢
  cases hexpiry with
  | ignored hi => exact ((hi job₀ hj₀).elim (· hv₀) (· hs₀)).elim
  | retried job runId scheduledAt attempt blocked _ hj hv hs hk hadm =>
    have hpending : Waits a' (.pending x.2.jobId runId) :=
      Waits.of_admitted hadm (p := x.2.retryOf runId scheduledAt attempt job.priority batchId) rfl
        (by simp [TimerEntry.retryOf]) fun q => mem_singleton
    rw [hw.of_retry hk]
    exact ⟨_, .retry x.2.jobId runId attempt x.2.runAt, hpending⟩
  | failed job error hj hv hs hk hdue =>
    have hone := (hw.of_normal env hk hj).1
    obtain ⟨due, hok, -⟩ := dueSchedule_one (clearNormalTimer job) hone
    rw [hok] at hdue
    cases hdue
  | fired job due b blocked drawn b' _ hj hv hs hk hdue halike hadm hlen hdrawn hnext =>
    obtain ⟨hone, hcontinues⟩ := hw.of_normal env hk hj
    obtain ⟨due', hok, hlen'⟩ := dueSchedule_one (clearNormalTimer job) hone
    rw [hok] at hdue
    cases hdue
    obtain ⟨p, rfl⟩ := length_eq_one_iff.mp (hlen.trans hlen')
    have hp := hdrawn p (mem_singleton_self p)
    obtain ⟨i, hi, hid⟩ := hp.fresh
    have hpending : Waits b' (.pending x.2.jobId p.runId) :=
      Waits.of_admitted hadm hp.jobId (by rw [hp.kind]; exact triggerKind_ne_normal hone)
        fun q => mem_singleton
    rw [hid] at hpending
    refine ⟨_, hcontinues i ?_, waits_next hadm hnext hpending⟩
    exact le_trans (le_of_eq halike.issued.symm) hi

/-- The timer of the work is still to be handled, and will not be ignored. -/
def InHand (a : SchedulerActor) (batch : List (Nat × TimerEntry)) (w : Work) : Prop :=
  ∃ x ∈ batch, TimerOf a x.2 w ∧ Current a x.2

/-- The Job, if it is there, keeps its version, state and trigger. -/
def Steady (a a' : SchedulerActor) (id : JobId) : Prop :=
  ∀ job, a.jobs.get id = some job → ∃ job', a'.jobs.get id = some job' ∧
    job'.version = job.version ∧ job'.state = job.state ∧ job'.trigger = job.trigger

namespace Steady

variable {id j : JobId}

theorem of_jobs (h : a'.jobs.get id = a.jobs.get id) : Steady a a' id :=
  fun job hj => ⟨job, h.trans hj, rfl, rfl, rfl⟩

theorem trans (h : Steady a a' id) (h' : Steady a' a'' id) : Steady a a'' id := fun job hj => by
  obtain ⟨job', hj', hv, hs, ht⟩ := h job hj
  obtain ⟨job'', hj'', hv', hs', ht'⟩ := h' job' hj'
  exact ⟨job'', hj'', hv'.trans hv, hs'.trans hs, ht'.trans ht⟩

theorem modify {jobs : Table JobId JobEntry}
    (hjobs : a'.jobs.get id = if id = j then (jobs.get id).map f else jobs.get id)
    (ha : a.jobs = jobs) (hf : ∀ job, (f job).version = job.version ∧ (f job).state = job.state ∧
      (f job).trigger = job.trigger) : Steady a a' id := fun job hj => by
  rw [← ha, hj] at hjobs
  split at hjobs
  · exact ⟨f job, hjobs, hf job⟩
  · exact ⟨job, hjobs, rfl, rfl, rfl⟩

theorem admitted {blocked new : List PendingExecution} (hj : a.jobs.get j = some job)
    (hadm : Admitted a j job blocked new a') : Steady a a' id := by
  by_cases hid : id = j
  · rw [hid]
    intro job' hj'
    cases hj.symm.trans hj'
    exact ⟨_, hadm.self, rfl, rfl, rfl⟩
  · exact of_jobs (hadm.other id hid)

theorem timerOf (h : Steady a a' w.jobId) (hw : TimerOf a e w) : TimerOf a' e w :=
  hw.frame fun once ⟨job, hj, ho⟩ => by
    obtain ⟨job', hj', -, -, ht⟩ := h job hj
    exact ⟨job', hj', ht ▸ ho⟩

theorem current (h : Steady a a' e.jobId) (hc : Current a e) : Current a' e := by
  obtain ⟨job, hj, hv, hs⟩ := hc
  obtain ⟨job', hj', hv', hs', -⟩ := h job hj
  exact ⟨job', hj', hv'.trans hv, hs'.trans hs⟩

end Steady

theorem forceDisable_steady (env : Env) (replaced : JobId → Bool) (a : SchedulerActor) (j id : JobId)
    (reason : String) : Steady a (a.forceDisable env j reason).2 id ∨
      Abandoned replaced a (a.forceDisable env j reason).2 id := by
  rcases forceDisable_cases env a j reason with ⟨he, -⟩ | ⟨job, hj, -, he⟩
  · exact .inl (.of_jobs (by rw [he]))
  · rw [he]
    by_cases hid : id = j
    · exact .inr (.of_last rfl (suffix_refl _) (decide_eq_true hid.symm))
    · exact .inl (.of_jobs ((get_commitDisable env a j job _ reason id).trans (if_neg hid)))

/-- A timer leaves every Job steady, or gives it up. -/
theorem handleTimer_steady (env : Env) (replaced : JobId → Bool) (a : SchedulerActor)
    (entry : TimerEntry) (batchId : Nat) (id : JobId) :
    Steady a (a.handleTimer env entry batchId) id ∨
      Abandoned replaced a (a.handleTimer env entry batchId) id := by
  have hclear : Steady a (a.modifyJob entry.jobId clearNormalTimer) id :=
    .modify (get_modify a.jobs entry.jobId id _) rfl fun _ => ⟨rfl, rfl, rfl⟩
  have hexpiry := expiry env a entry batchId
  generalize a.handleTimer env entry batchId = a' at hexpiry ⊢
  cases hexpiry with
  | ignored => exact .inl (.of_jobs rfl)
  | retried job runId scheduledAt attempt blocked _ hj hv hs hk hadm =>
    have hsteady : Steady { a with retryTimers := a.retryTimers.remove runId } a' id :=
      .admitted hj hadm
    exact .inl hsteady
  | failed job error hj hv hs hk _ =>
    have htick : Steady a (a.modifyJob entry.jobId clearNormalTimer).tick id := hclear
    exact (forceDisable_steady env replaced _ entry.jobId id error.text).imp htick.trans
      fun hgone => hgone
  | fired job due b blocked drawn b' _ hj hv hs hk _ halike hadm _ hdrawn hnext =>
    have hb : Steady a b id := hclear.trans (.of_jobs (by rw [halike.jobs]))
    have hadmitted := hb.trans (.admitted (get_cleared halike hj) hadm)
    rcases hnext with ⟨rfl, -⟩ | ⟨next, rfl⟩
    · exact .inl hadmitted
    · exact .inl (hadmitted.trans (.modify (get_jobs_scheduleNormal env b' entry.jobId next
        .normal id) rfl fun _ => ⟨rfl, rfl, rfl⟩))

/-- What has become of the work while a batch is handled. -/
structure Alive (env : Env) (replaced : JobId → Bool) (w : Work) (start : SchedulerActor)
    (batch : List (Nat × TimerEntry)) (a : SchedulerActor) : Prop where
  onward : Onward start a
  work : (∃ w', Continues env start w w' ∧ Waits a w') ∨ InHand a batch w ∨
    Abandoned replaced start a w.jobId

/-- The invariant of the loop over a batch. -/
structure BatchInv (env : Env) (a : SchedulerActor) (batch : List (Nat × TimerEntry)) : Prop where
  tidy : Tidy a
  handed : Handed a batch
  runs : RunsOnce env ⟨a, batch, [], []⟩

section Batch

variable {start : SchedulerActor}

theorem BatchInv.next (h : BatchInv env a (x :: rest)) (batchId : Nat) :
    BatchInv env (a.handleTimer env x.2 batchId) rest where
  tidy := (h.tidy.handleTimer h.handed batchId).1
  handed := (h.tidy.handleTimer h.handed batchId).2
  runs := h.runs.steps (handleTimer_steps trivial trivial x.1 x.2 batchId fun _ => trivial)

/-- **One timer of the batch.** -/
theorem Alive.next (h : Alive env replaced w start (x :: rest) a) (hb : BatchInv env a (x :: rest))
    (batchId : Nat) : Alive env replaced w start rest (a.handleTimer env x.2 batchId) := by
  have hon := handleTimer_onward env a x.2 batchId
  refine ⟨h.onward.trans hon, ?_⟩
  rcases h.work with ⟨w', hc, hw⟩ | ⟨y, hy, hw, hcur⟩ | hgone
  · -- it waits, perhaps as an execution by now
    have hs : Survives replaced w' a (a.handleTimer env x.2 batchId) :=
      .handleTimer hb.tidy hb.handed hb.runs batchId
    rcases hs.work hw with hw | hgone
    · exact .inl ⟨w', hc, hw⟩
    · rw [hc.jobId] at hgone
      exact .inr (.inr (hgone.earlier h.onward.events hon.events))
  · rcases mem_cons.mp hy with rfl | hy
    · obtain ⟨w', hc, hwait⟩ := handleTimer_continues env hcur hw batchId
      exact .inl ⟨w', hc.earlier h.onward.issued, hwait⟩
    · rcases handleTimer_steady env replaced a x.2 batchId w.jobId with hst | hgone
      · have hcur' := Steady.current (by rw [hw.jobId]; exact hst) hcur
        exact .inr (.inl ⟨y, hy, hst.timerOf hw, hcur'⟩)
      · exact .inr (.inr (hgone.earlier h.onward.events hon.events))
  · exact .inr (.inr (hgone.later h.onward.events hon.events))

theorem Alive.handleTimers (batchId : Nat) : ∀ (batch : List (Nat × TimerEntry))
    {a : SchedulerActor}, Alive env replaced w start batch a → BatchInv env a batch →
    Alive env replaced w start [] (a.handleTimers env batchId batch)
  | [], _, h, _ => h
  | _ :: rest, _, h, hb => handleTimers batchId rest (h.next hb batchId) (hb.next batchId)

/-- **An expired batch**: the work waits, goes on as an execution, or its Job was given up. -/
theorem handleExpiredBatch_alive (ht : Tidy a) (hr : RunsOnce env (.idle a)) (keys : List Nat)
    (hw : Waits a w) : (∃ w', Continues env a w w' ∧ Waits (a.handleExpiredBatch env keys) w') ∨
      Abandoned replaced a (a.handleExpiredBatch env keys) w.jobId := by
  unfold SchedulerActor.handleExpiredBatch
  dsimp only
  split
  · exact .inl ⟨w, .same w, hw⟩
  · generalize hpop : keys.take a.config.dueBatchSize = taken
    have hsteps : Steps env (fun _ => True) (.idle a)
        ⟨{ a with
            batchSequence := wrappingSucc a.batchSequence
            timers := (popExpired a.timers taken).2 }, (popExpired a.timers taken).1, [], []⟩ :=
      (popExpired_steps trivial taken a []).trans
        (.one trivial (.silent _ a.configRevision (wrappingSucc a.batchSequence) a.ticks
          a.jobsIssued a.panicked))
    have hinv : BatchInv env
        { a with
          batchSequence := wrappingSucc a.batchSequence
          timers := (popExpired a.timers taken).2 } (popExpired a.timers taken).1 := by
      refine ⟨fun id => (ht id).popTimers (fun k e he => ?_) (popExpired_nextKey _ _) _,
        .popExpired ht _ _, hr.steps hsteps⟩
      rw [popExpired_get] at he
      split at he
      · cases he
      · exact he
    have halive : Alive env replaced w a (popExpired a.timers taken).1
        { a with
          batchSequence := wrappingSucc a.batchSequence
          timers := (popExpired a.timers taken).2 } := by
      refine ⟨⟨suffix_refl _, le_refl _⟩, ?_⟩
      rcases hw with ⟨key, e, he, hw⟩ | hw
      · by_cases hk : key ∈ (popExpired a.timers taken).1.map Prod.fst
        · obtain ⟨x, hx, rfl⟩ := mem_map.mp hk
          have hxe := mem_popExpired hx
          cases he.symm.trans hxe
          refine .inr (.inl ⟨x, hx, hw, ?_⟩)
          obtain ⟨job, hj, hv, -⟩ := (ht x.2.jobId).stored x.1 x.2 hxe rfl
          refine ⟨job, hj, hv, ?_⟩
          by_contra hs
          exact ((ht x.2.jobId).ownsNothing (not_enabledJob hj hs)).timers x.1 x.2 hxe rfl
        · refine .inl ⟨w, .same w, .inl ⟨key, e, ?_, hw⟩⟩
          exact (popExpired_get taken a.timers key).trans ((if_neg hk).trans he)
      · exact .inl ⟨w, .same w, .inr hw⟩
    rcases (halive.handleTimers _ _ hinv).work with hwait | ⟨x, hx, -⟩ | hgone
    · exact .inl hwait
    · cases hx
    · exact .inr hgone

end Batch

/-! ## 4. What comes before the wait -/

namespace Waits

theorem restoreJob (h : Waits a w) (ht : Tidy a) (hr : RunsOnce env (.idle a)) (jobId : JobId) :
    Waits (a.restoreJob env jobId) w := by
  unfold SchedulerActor.restoreJob
  split
  · exact h
  · rename_i job hj
    obtain ⟨blocked, hre⟩ := Requeued.restored env hj
    have hback := h.requeued (ht jobId) hr hj hre
    dsimp only
    unfold resumeJob
    rw [hre.self]
    dsimp only
    split
    · rename_i hc
      split
      · exact hback
      · split
        · refine hback.scheduleNormal (fun job' hj' => ?_) _ .normal
          cases hre.self.symm.trans hj'
          exact (ht jobId).unplanned job hj hc.2.1
        · exact hback
    · exact hback

theorem restoreJobs : ∀ (jobIds : List JobId) {a : SchedulerActor}, Waits a w → Tidy a →
    RunsOnce env (.idle a) → Waits (a.restoreJobs env jobIds) w
  | [], _, h, _, _ => h
  | jobId :: rest, _, h, ht, hr =>
    restoreJobs rest (h.restoreJob ht hr jobId) (ht.restoreJob jobId)
      (hr.steps (restoreJob_steps trivial trivial jobId))

theorem restoreBlocked (h : Waits a w) (ht : Tidy a) (hr : RunsOnce env (.idle a)) :
    Waits (a.restoreBlocked env) w := by
  unfold SchedulerActor.restoreBlocked
  split
  · exact h
  · exact h.restoreJobs a.jobs.keys ht hr

theorem spawnExecution (h : Waits a w) (p : PendingExecution) : Waits (a.spawnExecution env p) w := by
  unfold SchedulerActor.spawnExecution
  split
  · exact h
  · split
    · exact h
    · have hstart : Waits (a.modifyJob p.jobId (startEntry (a.now env) p.scheduledAt)) w :=
        h.modifyJob fun _ => ⟨rfl, rfl⟩
      exact hstart.frame (fun _ _ _ he => he) (fun _ ho => ho) fun _ _ _ hp => hp

/-- **Dispatch** starts what leaves the queue. -/
theorem dispatchLoop : ∀ (fuel : Nat) {a : SchedulerActor}, Waits a w →
    Waits (SchedulerActor.dispatchLoop env fuel a) w ∨
      ∃ s ∈ dispatchStarts env fuel a, w = .pending s.2.jobId s.2.runId
  | 0, _, h => .inl h
  | fuel + 1, a, h => by
    unfold SchedulerActor.dispatchLoop dispatchStarts
    split
    · cases hpop : a.ready.popDispatchable a.canRun with
      | mk o ready =>
        cases o with
        | none =>
          have hpending := (ReadyQueue.popDispatchable_none (congrArg Prod.fst hpop)).2.1
          rw [hpop] at hpending
          refine .inl (h.frame (fun _ _ _ he => he) (fun _ ho => ho) fun p _ _ hp => ?_)
          refine hp.imp_left fun hq => ?_
          unfold Queued at hq ⊢
          rw [show ({ a with ready := ready } : SchedulerActor).ready.pending = _ from hpending]
          exact hq
        | some q =>
          obtain ⟨-, hq, -, hpending, -⟩ :=
            ReadyQueue.popDispatchable_some (congrArg Prod.fst hpop)
          rw [hpop] at hpending
          by_cases hw : w = .pending q.jobId q.runId
          · exact .inr ⟨_, mem_cons_self, hw⟩
          · have htaken : Waits { a with ready := ready } w := by
              rcases h with ht | ⟨p, rfl, hk, hwait⟩
              · exact .inl ht
              · refine .inr ⟨p, rfl, hk, hwait.imp_left fun hp => ?_⟩
                have hne : p.runId ≠ q.runId := by
                  intro he
                  have hsame : p = q := Option.some.inj (hp.symm.trans (by rw [he]; exact hq))
                  exact hw (by rw [hsame])
                unfold Queued at hp ⊢
                rw [show ({ a with ready := ready } : SchedulerActor).ready.pending = _
                  from hpending, get_remove, if_neg hne]
                exact hp
            refine (dispatchLoop fuel (htaken.spawnExecution q)).imp_right ?_
            rintro ⟨s, hs, hw⟩
            exact ⟨s, mem_cons_of_mem _ hs, hw⟩
    · exact .inl h

end Waits

/-! ## 5. Turns -/

/-- The patches the message brings, if it passes its checks. -/
def Message.revises (env : Env) (a : SchedulerActor) : Message → List (JobId × JobPatch)
  | .command c => c.revises env a
  | _ => []

/-- The patch replaces the trigger or the task. -/
def JobPatch.replaces (patch : JobPatch) : Bool := patch.trigger.isSome || patch.task.isSome

/-- The message replaces the trigger or the task of the Job. -/
def Message.replaces (env : Env) (a : SchedulerActor) (message : Message) (id : JobId) : Bool :=
  (message.revises env a).any fun u => decide (u.1 = id) && u.2.replaces

/-- The turn starts the execution. -/
def Started (env : Env) (a : SchedulerActor) (message : Message) (w : Work) : Prop :=
  ∃ s ∈ turnStarts env a message, w = .pending s.2.jobId s.2.runId

/-- **No work is lost in the turn**: what waits goes on waiting, perhaps as an execution by now, or
    is started, or the turn broadcasts that its Job was deleted, disabled, or given another trigger
    or task. -/
def Lossless (env : Env) (a : SchedulerActor) (message : Message) : Prop :=
  ∀ w, Waits a w →
    (∃ w', Continues env a w w' ∧ (Waits (a.turn env message) w' ∨ Started env a message w')) ∨
      Abandoned (message.replaces env a) a (a.turn env message) w.jobId

/-- A resource-only update reschedules the timer without losing work. -/
def TimerEntry.keptByUpdate (e : TimerEntry) (once : Bool) : Bool :=
  match e.kind with
  | .normal => true
  | .runNow => once
  | .retry _ _ _ => false

/-- Resource-only updates are of Jobs without retry timers and without a requested run that waits
    as a timer, unless the Job is a one-shot one. -/
def UpdateGuard (env : Env) (a : SchedulerActor) (message : Message) : Prop :=
  ∀ u ∈ message.revises env a, u.2.replaces = false → ∀ job ∈ a.jobs.get u.1,
    ∀ e ∈ a.timers.entries.values, e.jobId = u.1 →
      e.keptByUpdate job.trigger.schedule.isOnce = true
  deriving Decidable

section Turn

variable {message : Message}

/-- What the guard leaves of the work of an updated Job. -/
theorem UpdateGuard.work (hg : UpdateGuard env a message) (ht : Tidy a) (hw : Waits a w)
    {id : JobId} {patch : JobPatch} (hm : (id, patch) ∈ message.revises env a)
    (hp : patch.replaces = false) (hid : w.jobId = id) : w = .once id ∨ ∃ r, w = .pending id r := by
  subst hid
  rcases hw with ⟨key, e, he, hw⟩ | ⟨p, rfl, -⟩
  · obtain ⟨job, hj, -⟩ := (ht w.jobId).stored key e he hw.jobId
    have hkept := hg _ hm hp job hj e (mem_values_iff.mpr ⟨key, he⟩) hw.jobId
    unfold TimerEntry.keptByUpdate at hkept
    cases w with
    | once => exact .inl rfl
    | runNow =>
      obtain ⟨-, hk, -, job', hj', ho⟩ := hw
      cases hj.symm.trans hj'
      rw [hk, ho] at hkept
      cases hkept
    | retry =>
      obtain ⟨-, -, scheduledAt, hk⟩ := hw
      rw [hk] at hkept
      cases hkept
    | pending => exact hw.elim
  · exact .inr ⟨p.runId, rfl⟩

theorem SlateInv.completion_survives (h : SlateInv env a) {task : SpawnedTask} {elapsed : Duration}
    {outcome : CompletionOutcome} (hg : SlateGuard a (.completion task elapsed outcome))
    (ht : task ∈ a.tasks) (hp : task.possible (a.tokenCancelled task.runId) outcome = true) :
    Survives replaced w a (a.handle env (.completion task elapsed outcome)) := by
  have hreleased : Survives replaced w a (a.released env task) := by
    refine ⟨⟨suffix_refl _, le_refl _⟩, fun hw => .inl ?_⟩
    have hmodified : Waits (a.modifyJob task.jobId (releaseEntry (a.now env))) w :=
      hw.modifyJob fun _ => ⟨rfl, rfl⟩
    exact hmodified.frame (fun _ _ _ he => he) (fun _ ho => ho) fun _ _ _ hp => hp
  rw [handle_completion env a ht hp]
  split
  · rename_i hcur
    exact hreleased.trans ((Survives.rule env replaced w _ task elapsed outcome).handleOutcome
      ⟨h.settling hg ht hp hcur, .refl _⟩)
  · exact hreleased

/-- **The handler of every message** keeps the work, or gives its Job up. -/
theorem SlateInv.handle_alive (h : SlateInv env a) (message : Message)
    (hs : SlateGuard a message) (hg : UpdateGuard env a message) (hw : Waits a w) :
    (∃ w', Continues env a w w' ∧ Waits (a.handle env message) w') ∨
      Abandoned (message.replaces env a) a (a.handle env message) w.jobId := by
  have hsame : ∀ {a'}, Survives (message.replaces env a) w a a' →
      (∃ w', Continues env a w w' ∧ Waits a' w') ∨
        Abandoned (message.replaces env a) a a' w.jobId := fun hs =>
    (hs.work hw).imp_left fun hw' => ⟨w, .same w, hw'⟩
  cases message with
  | command command =>
    have hrule : CommandRule env a command
        (Kept ((Message.command command).replaces env a) w a) := by
      refine Kept.rule env a command w (fun id patch hm hp => ?_) fun id patch hm hp hid =>
        hg.work h.tidy hw hm hp hid
      refine any_eq_true.mpr ⟨(id, patch), hm, ?_⟩
      rw [Bool.and_eq_true]
      exact ⟨decide_eq_true rfl, hp⟩
    exact hsame (hrule.handleCommand (.start_of_tidy h.tidy)).survives
  | completion task elapsed outcome =>
    by_cases hc : task ∈ a.tasks ∧ task.possible (a.tokenCancelled task.runId) outcome
    · exact hsame (h.completion_survives hs hc.1 hc.2)
    · rw [SchedulerActor.handle, if_neg hc]
      exact hsame (.refl a)
  | joinError =>
    exact hsame ⟨⟨suffix_refl _, le_refl _⟩, fun hw =>
      .inl (hw.frame (fun _ _ _ he => he) (fun _ ho => ho) fun _ _ _ hp => hp)⟩
  | expired keys => exact handleExpiredBatch_alive h.tidy h.runs keys hw
  | maintenance =>
    rw [SchedulerActor.handle, reanchorTimers]
    split
    · exact hsame (.refl a)
    · exact hsame (.alike (.panic a))
  | rehash entries =>
    rw [SchedulerActor.handle]
    split
    · rename_i hperm
      have hget : ∀ id, (⟨entries, ((hperm.map Prod.fst).nodup_iff).mp a.jobs.nodup⟩ :
          Table JobId JobEntry).get id = a.jobs.get id := fun id => by
        refine Table.SameContent.get_eq ?_ id
        exact hperm
      refine .inl ⟨w, .same w, hw.frame (fun _ _ _ he => he) (fun once howed => ?_)
        fun p _ _ hp => hp.imp_right fun hqueued => ?_⟩
      · obtain ⟨job, hj, ho⟩ := howed
        exact ⟨job, (hget _).trans hj, ho⟩
      · obtain ⟨job, hj, hin⟩ := hqueued
        exact ⟨job, (hget _).trans hj, hin⟩
    · exact hsame (.refl a)

/-- What the handler left waiting still waits when the turn is over, or has been started. -/
theorem SlateInv.settled (h : SlateInv env a) (hs : SlateGuard a message) (hp : a.panicked = false)
    (hw : Waits (a.handle env message) w) :
    Waits (a.turn env message) w ∨ Started env a message w := by
  have hback := hw.restoreBlocked (h.handle message hs) (h.runs.handle message)
  unfold Started turnStarts SchedulerActor.turn
  rw [hp]
  dsimp only
  cases hq : (a.handle env message).panicked with
  | true => exact .inl hw
  | false => exact hback.dispatchLoop _

/-- **No turn loses work** that meets the guards. -/
theorem SlateInv.lossless (h : SlateInv env a) (hs : SlateGuard a message)
    (hg : UpdateGuard env a message) : Lossless env a message := by
  intro w hw
  cases hp : a.panicked with
  | true =>
    have hturn : a.turn env message = a := if_pos hp
    exact .inl ⟨w, .same w, .inl (hturn.symm ▸ hw)⟩
  | false =>
    rcases h.handle_alive message hs hg hw with ⟨w', hc, hw'⟩ | hgone
    · exact .inl ⟨w', hc, h.settled hs hp hw'⟩
    · have hsteps : Steps env (fun _ => True) (.idle a) (.idle (a.handle env message)) :=
        handle_steps message fun _ _ => trivial
      have hhandled := Onward.steps hsteps
      have hsettled : Onward (a.handle env message) (a.turn env message) := by
        have hturn : a.turn env message = if (a.handle env message).panicked then
            a.handle env message else (a.handle env message).settle env :=
          if_neg (by rw [hp]; simp)
        rw [hturn]
        split
        · exact .refl _
        · have hsteps : Steps env (fun _ => True) (.idle (a.handle env message))
              (.idle ((a.handle env message).settle env)) := settle_steps trivial trivial trivial _
          exact .steps hsteps
      exact .inr (hgone.later hhandled.events hsettled.events)

end Turn

/-! ## 6. Attempts -/

/-- The actor, and the attempts that may count on their retries: those that run, and whose Job has
    only been given other resources since they were started. -/
structure Watched where
  actor : SchedulerActor
  attempts : List (JobId × RunId)

/-- The Job is as it was before the turn, or Enabled still and updated, but not its trigger or
    task. -/
def carriedOn (env : Env) (a : SchedulerActor) (message : Message) (id : JobId) : Bool :=
  match a.jobs.get id, (a.turn env message).jobs.get id with
  | some job, some job' =>
    decide (job'.version = job.version) ||
      (decide (job.state = .enabled) && decide (job'.state = .enabled) &&
        (message.revises env a).any (fun u => decide (u.1 = id)) && !message.replaces env a id)
  | _, _ => false

def Watched.step (env : Env) (s : Watched) (message : Message) : Watched where
  actor := s.actor.turn env message
  attempts := (s.attempts.filter fun x => carriedOn env s.actor message x.1) ++
    (turnStarts env s.actor message).map fun started => (started.2.jobId, started.2.runId)

def Watched.start (env : Env) (config : SchedulerConfig) : Watched :=
  ⟨SchedulerActor.start env config, []⟩

def CompletionOutcome.isTransient : CompletionOutcome → Bool
  | .finished (.taskTransient _) => true
  | _ => false

/-- A watched attempt fails, and its failure is transient. -/
def Watched.Fails (s : Watched) (task : SpawnedTask) (outcome : CompletionOutcome) : Prop :=
  s.actor.panicked = false ∧ task ∈ s.actor.tasks ∧
    task.possible (s.actor.tokenCancelled task.runId) outcome = true ∧
    outcome.isTransient = true ∧ (task.jobId, task.runId) ∈ s.attempts
  deriving Decidable

/-- **A transient failure is retried**: if the policy grants another attempt, it waits as a timer
    with the policy's delay. -/
def RetriesKept (env : Env) (s : Watched) : Message → Prop
  | .completion task elapsed outcome => s.Fails task outcome →
      ∀ delay ∈ s.actor.retryDelay task.jobId task.attempt .transient,
        ∃ runAt, retryAt (env.clock (s.actor.ticks + 1)) delay = some runAt ∧
          Waits (s.actor.turn env (.completion task elapsed outcome))
            (.retry task.jobId task.runId (task.attempt + 1) runAt)
  | _ => True

/-- The Job of a watched attempt that is to be retried has the version the attempt was started
    under, and the time of the next attempt is within chrono's range. -/
def RetryGuard (env : Env) (s : Watched) : Message → Prop
  | .completion task _ outcome => s.Fails task outcome →
      ∀ delay ∈ s.actor.retryDelay task.jobId task.attempt .transient,
        s.actor.atVersion task.jobId task.version = true ∧
          (retryAt (env.clock (s.actor.ticks + 1)) delay).isSome = true
  | _ => True

instance (env : Env) (s : Watched) : ∀ message, Decidable (RetryGuard env s message)
  | .completion _ _ _ => inferInstanceAs (Decidable (_ → ∀ delay ∈ s.actor.retryDelay _ _ _, _))
  | .command _ | .joinError _ | .expired _ | .maintenance | .rehash _ => .isTrue trivial

/-- The policy grants another attempt: its timer is set. -/
theorem waits_retry {c : TaskCompletion} {delay : Duration} {runAt : DateTime} (error : String)
    (hd : a.retryDelay c.jobId c.attempt .transient = some delay)
    (hr : retryAt (a.now env) delay = some runAt) :
    Waits (a.handleExecutionFailure env c error .transient)
      (.retry c.jobId c.runId (c.attempt + 1) runAt) := by
  unfold SchedulerActor.handleExecutionFailure
  rw [if_neg (by simp), hd]
  dsimp only
  have hnow : (a.emit env (.executionFailed c.jobId c.version c.runId c.attempt error
      (some delay).isSome)).now env = a.now env := rfl
  rw [hnow, hr]
  exact .of_scheduleRetry _ _ _ _ _ _ _

theorem SlateInv.retriesKept {s : Watched} (h : SlateInv env s.actor) {message : Message}
    (hs : SlateGuard s.actor message) (hg : RetryGuard env s message) :
    RetriesKept env s message := by
  cases message with
  | command | joinError | expired | maintenance | rehash => trivial
  | completion task elapsed outcome =>
    intro hf delay hd
    obtain ⟨hv, hrange⟩ := hg hf delay hd
    obtain ⟨runAt, hrun⟩ := Option.isSome_iff_exists.mp hrange
    obtain ⟨hp, hin, hpossible, htransient, -⟩ := hf
    refine ⟨runAt, hrun, ?_⟩
    have hhandled : Waits (s.actor.handle env (.completion task elapsed outcome))
        (.retry task.jobId task.runId (task.attempt + 1) runAt) := by
      obtain ⟨error, rfl⟩ : ∃ error, outcome = .finished (.taskTransient error) := by
        unfold CompletionOutcome.isTransient at htransient
        split at htransient
        · exact ⟨_, rfl⟩
        · cases htransient
      obtain ⟨job, hj, -⟩ := atVersion_iff.mp hv
      have hget : (s.actor.released env task).jobs.get task.jobId =
          some (releaseEntry (s.actor.now env) job) := get_modify_of_get hj _
      rw [handle_completion env _ hin hpossible, if_pos hv]
      exact waits_retry (c := task.completion elapsed (.finished (.taskTransient error))) error
        ((retryDelay_congr hj hget rfl task.attempt .transient).trans hd) hrun
    refine (h.settled hs hp hhandled).resolve_right ?_
    rintro ⟨started, -, hw⟩
    cases hw

/-- What a run must meet. -/
def LosslessGuard (env : Env) (s : Watched) (message : Message) : Prop :=
  SlateGuard s.actor message ∧ UpdateGuard env s.actor message ∧ RetryGuard env s message
  deriving Decidable

section Runs

def hourly : Trigger := ⟨.interval (3600 * 10 ^ 9) none, .fireOnce, none⟩

/-- Two more attempts, a second after the failure. -/
def twoMore : JobOptions := { retry := .exponential (Nat.toPNat' 3) (10 ^ 9) (10 ^ 9) {} }

/-- The second attempt of the execution. -/
def secondAttempt : SpawnedTask := { execution 1 1 0 with attempt := 2 }

/-- An attempt fails and is retried; while the second one runs, the Job's priority is changed. -/
def retriedThenUrgent : List Message :=
  [.command (.add (some 1) 1 true hourly cleanup twoMore),
   .expired [0],
   .completion (execution 1 1 0) 0 (.finished (.taskTransient "busy")),
   .expired [2],
   .command (.update 1 1 urgent),
   .completion secondAttempt 0 (.finished .completed)]

/-- The priority is changed while the retry waits for its time. -/
def urgentBeforeRetry : List Message :=
  [.command (.add (some 1) 1 true hourly cleanup twoMore),
   .expired [0],
   .completion (execution 1 1 0) 0 (.finished (.taskTransient "busy")),
   .command (.update 1 1 urgent)]

/-- The priority is changed while the first attempt runs. -/
def urgentBeforeFailure : List Message :=
  [.command (.add (some 1) 1 true hourly cleanup twoMore),
   .expired [0],
   .command (.update 1 1 urgent),
   .completion (execution 1 1 0) 0 (.finished (.taskTransient "busy"))]

theorem not_waits_retry (h : ∀ e ∈ a.timers.entries.values, e.kind = .normal) (id : JobId)
    (runId : RunId) (attempt : Nat) (runAt : DateTime) :
    ¬ Waits a (.retry id runId attempt runAt) := by
  rintro (⟨key, e, he, -, -, scheduledAt, hk⟩ | ⟨p, hw, -⟩)
  · rw [h e (mem_values_iff.mpr ⟨key, he⟩)] at hk
    cases hk
  · cases hw

theorem not_waits_pending {id : JobId} (hq : a.ready.pending.values = [])
    (hb : ∀ job ∈ a.jobs.get id, job.blocked = []) (runId : RunId) :
    ¬ Waits a (.pending id runId) := by
  rintro (⟨key, e, -, hfalse⟩ | ⟨p, hw, -, hp | ⟨job, hj, hin⟩⟩)
  · exact hfalse
  · have hmem : p ∈ a.ready.pending.values := mem_values_iff.mpr ⟨p.runId, hp⟩
    rw [hq] at hmem
    cases hmem
  · cases hw
    rw [hb job hj] at hin
    cases hin

end Runs

end Smalux.Scheduler
