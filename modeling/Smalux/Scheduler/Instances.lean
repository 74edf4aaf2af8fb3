/-
  Subject:   Work that may not be lost while it waits, and what the operations on Jobs do to it.

  The run of a one-shot Job, a requested run and a retry wait as a timer; then the execution waits
  in the queue, or its Job holds it back. `Work` names such an instance, `Waits` says that it is
  there. It may go when its Job is deleted, disabled or gets another trigger or task: the actor
  broadcasts that (`Abandoned`).

  * `Waits.commitDisable`, `Waits.commitUpdate`, .. -- one lemma per operation: the instance still
    waits, or its Job was given up.
-/
import Smalux.Scheduler.RunIds
import Smalux.Scheduler.Tidy

namespace Smalux.Scheduler

open Lib SchedulerActor List DelayQueue ReadyQueue

variable {env : Env} {a a' : SchedulerActor} {w : Work} {id : JobId} {replaced : JobId → Bool}

/-! ## 1. Instances -/

/-- A piece of work that may not be lost while it waits. -/
inductive Work where
  /-- the run of a one-shot Job, as its timer -/
  | once (jobId : JobId)
  /-- a requested run of a periodic Job, as its timer -/
  | runNow (jobId : JobId) (runAt : DateTime)
  /-- the next attempt of an execution, as a timer -/
  | retry (jobId : JobId) (runId : RunId) (attempt : Nat) (runAt : DateTime)
  /-- an execution that is queued or held back -/
  | pending (jobId : JobId) (runId : RunId)
  deriving DecidableEq, Repr

def Work.jobId : Work → JobId
  | .once jobId => jobId
  | .runNow jobId _ => jobId
  | .retry jobId _ _ _ => jobId
  | .pending jobId _ => jobId

/-- Whether the Job is there, and a one-shot one or not. -/
def SchedulerActor.Schedules (a : SchedulerActor) (id : JobId) (once : Bool) : Prop :=
  ∃ job, a.jobs.get id = some job ∧ job.trigger.schedule.isOnce = once

/-- The timer is the one the work waits as. -/
def TimerOf (a : SchedulerActor) (e : TimerEntry) : Work → Prop
  | .once id => e.IsNormalOf id ∧ a.Schedules id true
  | .runNow id runAt => e.jobId = id ∧ e.kind = .runNow ∧ e.runAt = runAt ∧ a.Schedules id false
  | .retry id runId attempt runAt =>
    e.jobId = id ∧ e.runAt = runAt ∧ ∃ scheduledAt, e.kind = .retry runId scheduledAt attempt
  | .pending _ _ => False

/-- The execution is queued, or its Job holds it back. -/
def SchedulerActor.Waiting (a : SchedulerActor) (p : PendingExecution) : Prop :=
  a.Queued p ∨ ∃ job, a.jobs.get p.jobId = some job ∧ p ∈ job.blocked

def Waits (a : SchedulerActor) (w : Work) : Prop :=
  (∃ key e, a.timers.get key = some e ∧ TimerOf a e w) ∨
    ∃ p, w = .pending p.jobId p.runId ∧ p.kind ≠ .normal ∧ a.Waiting p

theorem TimerOf.jobId {e : TimerEntry} (h : TimerOf a e w) : e.jobId = w.jobId := by
  cases w with
  | once => exact h.1.1
  | runNow | retry => exact h.1
  | pending => exact h.elim

theorem TimerOf.frame {e : TimerEntry} (h : TimerOf a e w)
    (hj : ∀ once, a.Schedules w.jobId once → a'.Schedules w.jobId once) : TimerOf a' e w := by
  cases w with
  | once => exact ⟨h.1, hj true h.2⟩
  | runNow => exact ⟨h.1, h.2.1, h.2.2.1, hj false h.2.2.2⟩
  | retry | pending => exact h

namespace Waits

/-- The Job's timers and waiting executions are still there. -/
theorem frame (h : Waits a w)
    (ht : ∀ key e, e.jobId = w.jobId → a.timers.get key = some e → a'.timers.get key = some e)
    (hj : ∀ once, a.Schedules w.jobId once → a'.Schedules w.jobId once)
    (hp : ∀ p, p.jobId = w.jobId → p.kind ≠ .normal → a.Waiting p → a'.Waiting p) : Waits a' w := by
  rcases h with ⟨key, e, he, hw⟩ | ⟨p, rfl, hk, hwait⟩
  · exact .inl ⟨key, e, ht key e hw.jobId he, hw.frame hj⟩
  · exact .inr ⟨p, rfl, hk, hp p rfl hk hwait⟩

/-- What happens to another Job does not matter, as long as its executions stay queued. -/
theorem other (h : Waits a w) (ho : Only id a a') (hne : w.jobId ≠ id)
    (hq : ∀ p, p.jobId ≠ id → p.kind ≠ .normal → a.Queued p → a'.Queued p) : Waits a' w := by
  refine h.frame (fun key e he hget => ?_) (fun once ⟨job, hj, ho'⟩ => ?_) fun p hp hk hwait => ?_
  · exact (ho.timers key e (by rw [he]; exact hne)).mpr hget
  · exact ⟨job, by rw [ho.jobs w.jobId hne]; exact hj, ho'⟩
  · have hne' : p.jobId ≠ id := by rw [hp]; exact hne
    refine hwait.imp (hq p hne' hk) fun ⟨job, hj, hin⟩ => ⟨job, ?_, hin⟩
    rw [ho.jobs p.jobId hne']
    exact hj

/-- Clock, events and counters do not matter. -/
theorem alike (h : Waits a w) (hs : WorkAlike a a') : Waits a' w := by
  refine h.frame (fun key e _ he => by rw [hs.timers]; exact he) (fun once ho => ?_)
    fun p _ _ hp => ?_
  · unfold Schedules at ho ⊢
    rw [hs.jobs]
    exact ho
  · unfold Waiting Queued at hp ⊢
    rw [hs.jobs, hs.ready]
    exact hp

/-- The Job keeps its trigger and what it holds back. -/
theorem modifyJob (h : Waits a w) {f : JobEntry → JobEntry}
    (hf : ∀ job, (f job).trigger = job.trigger ∧ (f job).blocked = job.blocked) :
    Waits (a.modifyJob id f) w := by
  have hget : ∀ j job, a.jobs.get j = some job →
      ∃ job', (a.modifyJob id f).jobs.get j = some job' ∧ job'.trigger = job.trigger ∧
        job'.blocked = job.blocked := by
    intro j job hj
    have hmod : (a.modifyJob id f).jobs.get j = if j = id then (a.jobs.get j).map f
        else a.jobs.get j := Table.get_modify a.jobs id j f
    rw [hmod, hj]
    split
    · exact ⟨f job, rfl, hf job⟩
    · exact ⟨job, rfl, rfl, rfl⟩
  refine h.frame (fun _ _ _ he => he) (fun once ⟨job, hj, ho⟩ => ?_) fun p _ _ hp => ?_
  · obtain ⟨job', hj', ht, -⟩ := hget _ job hj
    exact ⟨job', hj', by rw [ht]; exact ho⟩
  · refine hp.imp (fun hq => hq) fun ⟨job, hj, hin⟩ => ?_
    obtain ⟨job', hj', -, hb⟩ := hget _ job hj
    exact ⟨job', hj', by rw [hb]; exact hin⟩

end Waits

/-- A Job that owns nothing has no work waiting. -/
theorem OwnsNothing.not_waits (h : OwnsNothing a w.jobId) : ¬ Waits a w := by
  rintro (⟨key, e, he, hw⟩ | ⟨p, rfl, hk, hq | ⟨job, hj, hin⟩⟩)
  · exact h.timers key e he hw.jobId
  · exact h.queued p hq rfl
  · rw [(h.job job hj).2] at hin
    cases hin

/-! ## 2. Jobs that are given up -/

/-- The event says that the Job was deleted or disabled, or changed when its trigger or task was
    replaced. -/
def SchedulerEventKind.abandons (replaced : JobId → Bool) (id : JobId) : SchedulerEventKind → Bool
  | .jobDeleted jobId _ => decide (jobId = id)
  | .jobDisabled jobId _ _ => decide (jobId = id)
  | .jobUpdated jobId _ => decide (jobId = id) && replaced id
  | _ => false

/-- The events of `a'` that `a` did not have; events are kept newest first. -/
def newEvents (a a' : SchedulerActor) : List SchedulerEvent :=
  a'.events.take (a'.events.length - a.events.length)

/-- The Job was given up between the two states. -/
def Abandoned (replaced : JobId → Bool) (a a' : SchedulerActor) (id : JobId) : Prop :=
  ∃ e ∈ newEvents a a', e.kind.abandons replaced id = true

theorem newEvents_of_append {new : List SchedulerEvent} (h : a'.events = new ++ a.events) :
    newEvents a a' = new := by
  unfold newEvents
  rw [h, length_append, Nat.add_sub_cancel, take_left]

namespace Abandoned

variable {a'' : SchedulerActor}

section Trans

variable (hg : a.events <:+ a'.events) (hg' : a'.events <:+ a''.events)
include hg hg'

theorem newEvents_trans : newEvents a a'' = newEvents a' a'' ++ newEvents a a' := by
  obtain ⟨new, hnew⟩ := hg
  obtain ⟨new', hnew'⟩ := hg'
  rw [newEvents_of_append hnew.symm, newEvents_of_append hnew'.symm]
  refine newEvents_of_append ?_
  rw [append_assoc, hnew, hnew']

theorem later (h : Abandoned replaced a a' id) : Abandoned replaced a a'' id := by
  obtain ⟨e, he, hk⟩ := h
  rw [Abandoned, newEvents_trans hg hg']
  exact ⟨e, mem_append_right _ he, hk⟩

theorem earlier (h : Abandoned replaced a' a'' id) : Abandoned replaced a a'' id := by
  obtain ⟨e, he, hk⟩ := h
  rw [Abandoned, newEvents_trans hg hg']
  exact ⟨e, mem_append_left _ he, hk⟩

end Trans

/-- The last event says so. -/
theorem of_last {e : SchedulerEvent} {rest : List SchedulerEvent} (h : a'.events = e :: rest)
    (hg : a.events <:+ rest) (hk : e.kind.abandons replaced id = true) :
    Abandoned replaced a a' id := by
  obtain ⟨new, hnew⟩ := hg
  have happ : a'.events = (e :: new) ++ a.events := by rw [h, cons_append, hnew]
  refine ⟨e, ?_, hk⟩
  rw [newEvents_of_append happ]
  exact mem_cons_self

end Abandoned

/-- A mutation only adds events. -/
theorem Touch.grows (h : Touch env id a a') : a.events <:+ a'.events := by
  cases h with
  | emit kind _ => exact suffix_cons _ _
  | scheduleNormal runAt kind _ =>
    unfold SchedulerActor.scheduleNormal
    split
    · exact suffix_refl _
    · exact suffix_cons _ _
  | tick | removeKey | clearRetries | setReady | cancel | modifyJob | removeJob =>
    exact suffix_refl _

theorem Touches.grows (h : Touches env id a a') : a.events <:+ a'.events := by
  induction h with
  | refl => exact suffix_refl _
  | tail _ hstep ih => exact ih.trans hstep.grows

/-! ## 3. Operations on Jobs -/

namespace Waits

variable {job : JobEntry} {plan : JobUpdatePlan} {p : PendingExecution} {patch : JobPatch}
  {blocked : List PendingExecution}

section

variable (h : Waits a w) (ht : Tidy a)
include h ht

theorem commitDisable (hj : a.jobs.get id = some job) (version : Nat) (reason : String) :
    Waits (a.commitDisable env id job version reason) w ∨
      Abandoned replaced a (a.commitDisable env id job version reason) w.jobId := by
  by_cases hid : w.jobId = id
  · exact .inr (.of_last rfl (suffix_refl _) (decide_eq_true hid.symm))
  · refine .inl (h.other (.commitDisable (ht id).own hj version reason) hid fun p hp _ hq => ?_)
    exact queued_retain.mpr ⟨hq, decide_eq_true hp⟩

theorem commitDelete (hj : a.jobs.get id = some job) (cancelRunning : Bool) :
    Waits (a.commitDelete env id job cancelRunning) w ∨
      Abandoned replaced a (a.commitDelete env id job cancelRunning) w.jobId := by
  by_cases hid : w.jobId = id
  · refine .inr ?_
    cases cancelRunning <;>
      exact .of_last rfl (suffix_refl _) (decide_eq_true hid.symm)
  · refine .inl (h.other (.commitDelete (ht id).own hj cancelRunning) hid fun p hp _ hq => ?_)
    have hkept : ({ a with ready := (a.ready.removeJob id).2 } : SchedulerActor).Queued p :=
      queued_retain.mpr ⟨hq, decide_eq_true hp⟩
    cases cancelRunning <;> exact hkept

/-- A Job that is not Enabled has nothing waiting that could be dropped. -/
theorem dropWork (hoff : ¬ a.EnabledJob id) : Waits (a.dropWork id) w := by
  have hid : w.jobId ≠ id := by
    rintro rfl
    exact ((ht w.jobId).ownsNothing hoff).not_waits h
  refine h.other (.dropWork (ht id).own) hid fun p hp _ hq => ?_
  exact queued_retain.mpr ⟨hq, decide_eq_true hp⟩

theorem commitEnable (hoff : ¬ a.EnabledJob id) (version : Nat) (now next : DateTime) :
    Waits (a.commitEnable env id version now next) w := by
  have hid : w.jobId ≠ id := by
    rintro rfl
    exact ((ht w.jobId).ownsNothing hoff).not_waits h
  refine h.other (.commitEnable (ht id).own version now next) hid fun p _ _ hq => ?_
  have hready : (a.commitEnable env id version now next).ready = a.ready :=
    ready_scheduleNormal env _ id next .normal
  unfold Queued at hq ⊢
  rw [hready]
  exact hq

theorem installJob (hj : a.jobs.get id = none) (entry : JobEntry)
    (hkey : entry.normalTimerKey = none) (enabled : Bool) (firstRun : DateTime) :
    Waits (a.installJob env id entry enabled firstRun) w := by
  have hid : w.jobId ≠ id := by
    rintro rfl
    refine ((ht w.jobId).ownsNothing ?_).not_waits h
    rintro ⟨job, hget, -⟩
    rw [hj] at hget
    cases hget
  refine h.other (.installJob (ht id).own entry hkey enabled firstRun) hid fun p _ _ hq => ?_
  have hready : (a.installJob env id entry enabled firstRun).ready = a.ready := by
    cases enabled with
    | true => exact ready_scheduleNormal env _ id firstRun .normal
    | false => rfl
  unfold Queued at hq ⊢
  rw [hready]
  exact hq

end

theorem ready_commitUpdate (patch : JobPatch) (plan : JobUpdatePlan) :
    (a.commitUpdate env id patch plan job).ready =
      updateReady plan id (patchEntry patch plan (a.now env) job) a.ready := by
  have hscheduled : ((a.applyPatch env id patch plan job).scheduleUpdated env id plan job).ready =
      updateReady plan id (patchEntry patch plan (a.now env) job) a.ready := by
    unfold scheduleUpdated
    split
    · exact ready_scheduleNormal env _ _ _ _
    · rfl
  refine Eq.trans ?_ hscheduled
  unfold SchedulerActor.commitUpdate cancelReplaced
  split <;> rfl

/-- What an update keeps in the queue, at the new version if it is the Job's own. -/
theorem queued_updateReady (hk : p.kind ≠ .normal) (hq : a.Queued p)
    (hp : p.jobId = id → plan.triggerChanged = false ∧ plan.taskChanged = false) :
    ({ a with ready := updateReady plan id job a.ready } : SchedulerActor).Queued
      (restamp id job.version job.priority p) := by
  have hmigrated : ({ a with ready := a.ready.migrateJob id job.version job.priority } :
      SchedulerActor).Queued (restamp id job.version job.priority p) :=
    queued_migrateJob.mpr ⟨p, hq, rfl⟩
  have hkind : (restamp id job.version job.priority p).kind ≠ .normal := by
    unfold restamp
    split <;> exact hk
  unfold updateReady
  split
  · rename_i hchanged
    have hne : p.jobId ≠ id := by
      intro hid
      obtain ⟨htrigger, htask⟩ := hp hid
      simp [htrigger, htask] at hchanged
    unfold restamp
    rw [if_neg hne]
    exact queued_retain.mpr ⟨hq, decide_eq_true hne⟩
  · split
    · refine queued_retain.mpr ⟨hmigrated, ?_⟩
      simp [replaceableOf, PendingKind.isReplaceableTrigger, hkind]
    · exact hmigrated

variable (env id job) in
theorem queued_commitUpdate (patch : JobPatch) (plan : JobUpdatePlan) (hk : p.kind ≠ .normal)
    (hq : a.Queued p) (hp : p.jobId = id → plan.triggerChanged = false ∧ plan.taskChanged = false) :
    (a.commitUpdate env id patch plan job).Queued
      (restamp id plan.nextVersion (patch.priority.getD job.priority) p) := by
  unfold Queued
  rw [ready_commitUpdate]
  exact queued_updateReady hk hq hp

/-- The run of a one-shot Job gets a new timer. -/
theorem commitUpdate_once (h : Waits a (.once id)) (ht : Tidy a) (hj : a.jobs.get id = some job)
    (htrigger : patch.trigger = none)
    (hnext : job.state = .enabled → ∃ next, plan.nextRunAt = some next) :
    Waits (a.commitUpdate env id patch plan job) (.once id) := by
  have hs : job.state = .enabled := by
    by_contra hs
    exact ((ht id).ownsNothing (not_enabledJob hj hs)).not_waits h
  have honce : job.trigger.schedule.isOnce = true := by
    rcases h with ⟨key, e, -, -, job', hj', ho⟩ | ⟨p, hw, -⟩
    · cases hj.symm.trans hj'
      exact ho
    · cases hw
  obtain ⟨next, hn⟩ := hnext hs
  obtain ⟨key, hkey⟩ : ∃ key, (a.updatedEntry env id patch plan job).normalTimerKey = some key := by
    unfold updatedEntry
    rw [hs, hn]
    exact ⟨_, rfl⟩
  have hupdated := get_commitUpdate env patch plan hj id
  rw [if_pos rfl] at hupdated
  have hscheduled : (a.applyPatch env id patch plan job).scheduleUpdated env id plan job =
      (a.applyPatch env id patch plan job).scheduleNormal env id next
        (if plan.reschedule = RescheduleMode.runNow then .runNow else .normal) := by
    unfold scheduleUpdated
    rw [hs, hn]
  have htimers : (a.commitUpdate env id patch plan job).timers =
      ((a.applyPatch env id patch plan job).scheduleUpdated env id plan job).timers := by
    unfold SchedulerActor.commitUpdate cancelReplaced
    split <;> rfl
  have hjobs : (a.commitUpdate env id patch plan job).jobs =
      ((a.applyPatch env id patch plan job).scheduleUpdated env id plan job).jobs :=
    jobs_cancelReplaced _ _ _ _
  rw [hjobs, hscheduled] at hupdated
  have hstored := scheduleNormal_stored env _ id next _ hupdated hkey
  refine .inl ⟨key, _, by rw [htimers, hscheduled]; exact hstored, ⟨rfl, ?_⟩, _,
    by rw [hjobs, hscheduled]; exact hupdated, ?_⟩
  · split
    · exact .inr rfl
    · exact .inl rfl
  · have htr : (a.updatedEntry env id patch plan job).trigger = job.trigger := by
      unfold updatedEntry updateWork
      split <;> split <;> simp [scheduleEntry, patchEntry, htrigger]
    rw [htr]
    exact honce

/-- Executions that wait are carried to the new version. -/
theorem commitUpdate_pending (hk : p.kind ≠ .normal) (hwait : a.Waiting p) (hp : p.jobId = id)
    (hj : a.jobs.get id = some job) (htrigger : plan.triggerChanged = false)
    (htask : plan.taskChanged = false) :
    Waits (a.commitUpdate env id patch plan job) (.pending id p.runId) := by
  have hrestamp : restamp id plan.nextVersion (patch.priority.getD job.priority) p =
      { p with version := plan.nextVersion, priority := patch.priority.getD job.priority } :=
    if_pos hp
  refine .inr ⟨{ p with
    version := plan.nextVersion, priority := patch.priority.getD job.priority }, by rw [← hp], hk, ?_⟩
  rcases hwait with hq | ⟨job', hj', hin⟩
  · refine .inl ?_
    have hkept := queued_commitUpdate env id job patch plan hk hq fun _ => ⟨htrigger, htask⟩
    rw [hrestamp] at hkept
    exact hkept
  · rw [hp] at hj'
    cases hj.symm.trans hj'
    have hupdated := get_commitUpdate env patch plan hj id
    rw [if_pos rfl] at hupdated
    refine .inr ⟨_, by rw [hp]; exact hupdated, ?_⟩
    have hblocked : (a.updatedEntry env id patch plan job).blocked = job.blocked.map fun p =>
        { p with version := plan.nextVersion, priority := patch.priority.getD job.priority } := by
      unfold updatedEntry updateWork
      rw [if_neg (by simp [htrigger, htask])]
      split <;> rfl
    rw [hblocked]
    exact mem_map_of_mem hin

/-- **An update**: the work of other Jobs still waits, and so does the Job's own if neither trigger
    nor task is replaced and it is the run of a one-shot Job, queued, or held back. -/
theorem commitUpdate (h : Waits a w) (ht : Tidy a) (hj : a.jobs.get id = some job)
    (htrigger : plan.triggerChanged = patch.trigger.isSome)
    (htask : plan.taskChanged = patch.task.isSome)
    (hnext : job.state = .enabled → ∃ next, plan.nextRunAt = some next)
    (hr : (patch.trigger.isSome || patch.task.isSome) = true → replaced id = true)
    (hw : (patch.trigger.isSome || patch.task.isSome) = false → w.jobId = id →
      w = .once id ∨ ∃ r, w = .pending id r) : Waits (a.commitUpdate env id patch plan job) w ∨
      Abandoned replaced a (a.commitUpdate env id patch plan job) w.jobId := by
  by_cases hid : w.jobId = id
  · cases hp : (patch.trigger.isSome || patch.task.isSome) with
    | true =>
      have happlied : Touches env id a (a.applyPatch env id patch plan job) :=
        .applyPatch patch plan hj
      have hgrows := ((happlied.scheduleUpdated plan job).cancelReplaced plan job).grows
      refine .inr (.of_last rfl hgrows ?_)
      simp [SchedulerEventKind.abandons, hid, hr hp]
    | false =>
      obtain ⟨htr, hta⟩ := Bool.or_eq_false_iff.mp hp
      refine .inl ?_
      rcases hw hp hid with rfl | ⟨r, rfl⟩
      · exact h.commitUpdate_once ht hj (Option.not_isSome_iff_eq_none.mp (by rw [htr]; simp)) hnext
      · rcases h with ⟨key, e, -, hfalse⟩ | ⟨p, hpw, hk, hwait⟩
        · exact hfalse.elim
        · cases hpw
          exact commitUpdate_pending hk hwait rfl hj (htrigger.trans htr) (htask.trans hta)
  · refine .inl (h.other (.commitUpdate (ht id).own hj patch plan) hid fun p hp hk hq => ?_)
    have hkept := queued_commitUpdate env id job patch plan hk hq fun he => absurd he hp
    unfold restamp at hkept
    rw [if_neg hp] at hkept
    exact hkept

/-! ## 4. Timers and executions -/

/-- One more timer. -/
theorem insertTimer (h : Waits a w) (e : TimerEntry) :
    Waits { a with timers := a.timers.insertAt e } w := by
  refine h.frame (fun key e' _ he => ?_) (fun _ ho => ho) fun _ _ _ hp => hp
  rw [get_insertAt, if_neg (Nat.ne_of_lt (lt_nextKey he))]
  exact he

/-- The Job had no timer that would be replaced. -/
theorem scheduleNormal (h : Waits a w)
    (hkey : ∀ job, a.jobs.get id = some job → job.normalTimerKey = none) (runAt : DateTime)
    (kind : TimerKind) : Waits (a.scheduleNormal env id runAt kind) w := by
  unfold SchedulerActor.scheduleNormal
  split
  · exact h
  · rename_i job hj
    rw [hkey job hj]
    have htimer := h.insertTimer ⟨id, job.version, runAt, kind⟩
    have hentry : Waits (SchedulerActor.modifyJob
        { a with timers := a.timers.insertAt ⟨id, job.version, runAt, kind⟩ } id
        (scheduleEntry a.timers.nextKey runAt)) w := htimer.modifyJob fun _ => ⟨rfl, rfl⟩
    exact hentry.alike (.emit env _ _)

theorem scheduleRetry (h : Waits a w) {runId : RunId} (hrow : a.retryTimers.get runId = none)
    (version : Nat) (scheduledAt : DateTime) (attempt : Nat) (runAt : DateTime) :
    Waits (a.scheduleRetry env id version runId scheduledAt attempt runAt) w := by
  unfold SchedulerActor.scheduleRetry
  rw [hrow]
  exact (h.insertTimer ⟨id, version, runAt, .retry runId scheduledAt attempt⟩).frame
    (fun _ _ _ he => he) (fun _ ho => ho) fun _ _ _ hp => hp

/-- The retry that has been scheduled waits. -/
theorem of_scheduleRetry (a : SchedulerActor) (id : JobId) (version : Nat) (runId : RunId)
    (scheduledAt : DateTime) (attempt : Nat) (runAt : DateTime) :
    Waits (a.scheduleRetry env id version runId scheduledAt attempt runAt)
      (.retry id runId attempt runAt) := by
  refine .inl ⟨(a.timers.removeKey ((a.retryTimers.get runId).map RetryTimer.key)).nextKey,
    ⟨id, version, runAt, .retry runId scheduledAt attempt⟩, ?_, rfl, rfl, scheduledAt, rfl⟩
  exact (get_insertAt _ _ _).trans (if_pos rfl)

/-- The executions that are admitted have run ids of their own. -/
theorem admitted (h : Waits a w) (ht : TidyAt a id) (hj : a.jobs.get id = some job)
    {new : List PendingExecution} (hadm : Admitted a id job blocked new a')
    (hid : ∀ q ∈ new, q.jobId = id) (hnew : ∀ q ∈ new, ∀ p, a.Waiting p → q.runId ≠ p.runId) :
    Waits a' w := by
  refine h.frame (fun key e _ he => by rw [hadm.timers]; exact he) (fun once ⟨job', hj', ho⟩ => ?_)
    fun p _ hk hwait => ?_
  · by_cases hw : w.jobId = id
    · rw [hw] at hj' ⊢
      cases hj.symm.trans hj'
      exact ⟨_, hadm.self, ho⟩
    · exact ⟨job', by rw [hadm.other _ hw]; exact hj', ho⟩
  · have hfresh : ∀ q ∈ new, q.runId = p.runId → q = p := fun q hq he =>
      absurd he (hnew q hq p hwait)
    have hown : ∀ {q}, q ∈ blocked → q.jobId = id := fun hq => by
      rcases hadm.held _ hq with hq | hq
      · exact (ht.blocked job hj _ hq).1
      · exact hid _ hq
    have hkept : a'.Queued p ∨ p ∈ blocked → a'.Waiting p := fun hp => by
      refine hp.imp_right fun hin => ⟨{ job with blocked := blocked }, ?_, hin⟩
      rw [hown hin]
      exact hadm.self
    rcases hwait with hq | ⟨job', hj', hin⟩
    · exact hkept (hadm.kept p hk hfresh (.inl hq))
    · by_cases hp : p.jobId = id
      · rw [hp] at hj'
        cases hj.symm.trans hj'
        exact hkept (hadm.kept p hk hfresh (.inr (.inl hin)))
      · exact .inr ⟨job', by rw [hadm.other _ hp]; exact hj', hin⟩

/-- An admitted execution that may not be dropped waits. -/
theorem of_admitted {new : List PendingExecution} (hadm : Admitted a id job blocked new a')
    (hp : p.jobId = id) (hk : p.kind ≠ .normal) (hnew : ∀ q, q ∈ new ↔ q = p) :
    Waits a' (.pending id p.runId) := by
  have hfresh : ∀ q ∈ new, q.runId = p.runId → q = p := fun q hq _ => (hnew q).mp hq
  refine .inr ⟨p, by rw [hp], hk, ?_⟩
  refine (hadm.kept p hk hfresh (.inr (.inr ((hnew p).mpr rfl)))).imp_right
    fun hin => ⟨{ job with blocked := blocked }, ?_, hin⟩
  rw [hp]
  exact hadm.self

/-- Held-back executions return. -/
theorem requeued (h : Waits a w) (ht : TidyAt a id) (hr : RunsOnce env (.idle a))
    (hj : a.jobs.get id = some job) (hre : Requeued a id job blocked a') : Waits a' w := by
  refine h.frame (fun key e _ he => by rw [hre.timers]; exact he) (fun once ⟨job', hj', ho⟩ => ?_)
    fun p _ _ hwait => ?_
  · by_cases hw : w.jobId = id
    · rw [hw] at hj' ⊢
      cases hj.symm.trans hj'
      exact ⟨_, hre.self, ho⟩
    · exact ⟨job', by rw [hre.other _ hw]; exact hj', ho⟩
  · rcases hwait with hq | ⟨job', hj', hin⟩
    · refine .inl (hre.keptQueued p (fun q hq' he => ?_) hq)
      have hnone := hr.not_queued_of_blocked hj hq'
      rw [he] at hnone
      exact absurd (hnone.symm.trans hq) (by simp)
    · by_cases hp : p.jobId = id
      · rw [hp] at hj'
        cases hj.symm.trans hj'
        refine (hre.kept p (fun q hq he => ?_) hin (ht.blocked job hj p hin).2).imp_right
          fun hrest => ⟨{ job with blocked := blocked }, by rw [hp]; exact hre.self, hrest⟩
        exact hr.blocked_unique hj hq hin he
      · exact .inr ⟨job', by rw [hre.other _ hp]; exact hj', hin⟩

end Waits

end Smalux.Scheduler
