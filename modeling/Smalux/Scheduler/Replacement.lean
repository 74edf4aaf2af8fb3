/-
  Subject:   Which waiting executions make room for others (scheduling.rs, management.rs).

  Keep-latest removes the waiting normal executions of a Job in two places: when a new one is
  admitted, before its own capacity is looked at, and when an update changes no trigger and no task,
  with no new one at all.

  * **`replacement_no_loss_iff`** -- an admission ends with the old and the new execution gone
    exactly when the queue is full without the old ones and the Job skips the newest;
  * **`newest_trigger_kept_iff`** -- a resource-only update keeps the newest execution exactly when
    the Job keeps all of them.
-/
import Smalux.Scheduler.Instances
import Smalux.Scheduler.Slots

namespace Smalux.Scheduler

open Lib SchedulerActor Table List

variable {env : Env} {a : SchedulerActor} {p q : PendingExecution} {job : JobEntry}

/-! ## 1. Admission -/

theorem emitReplaced_frame (env : Env) (jobId : JobId) (replacement : RunId) :
    ∀ (removed : List RunId) (a : SchedulerActor),
      (a.emitReplaced env jobId replacement removed).ready = a.ready ∧
        (a.emitReplaced env jobId replacement removed).jobs = a.jobs ∧
        (a.emitReplaced env jobId replacement removed).config = a.config
  | [], _ => ⟨rfl, rfl, rfl⟩
  | _ :: rest, _ => emitReplaced_frame env jobId replacement rest _

theorem coalesce_frame (env : Env) (a : SchedulerActor) (p : PendingExecution) (job : JobEntry) :
    (a.coalesce env p job).ready = a.ready.retain (fun q => !ReadyQueue.replaceableOf p.jobId q) ∧
      (a.coalesce env p job).jobs = a.jobs.modify p.jobId dropReplaceable ∧
      (a.coalesce env p job).config = a.config :=
  emitReplaced_frame env _ _ _ _

theorem waiting_congr {a' : SchedulerActor} (hr : a'.ready = a.ready) (hj : a'.jobs = a.jobs) :
    a'.Waiting q ↔ a.Waiting q := by
  unfold Waiting Queued
  rw [hr, hj]

/-- Keep-latest removes the normal executions of the Job, wherever they wait, and nothing else. -/
theorem waiting_coalesce (hj : a.jobs.get p.jobId = some job) (hq : q.jobId = p.jobId) :
    (a.coalesce env p job).Waiting q ↔ a.Waiting q ∧ q.kind ≠ .normal := by
  obtain ⟨hready, hjobs, -⟩ := coalesce_frame env a p job
  unfold Waiting Queued
  rw [hready, hjobs, hq, get_modify_of_get hj, hj, or_and_right]
  refine or_congr (queued_retain.trans (and_congr_right fun _ => ?_)) ?_
  · simp [ReadyQueue.replaceableOf, PendingKind.isReplaceableTrigger, hq]
  · simp [dropReplaceable, PendingKind.isReplaceableTrigger]

/-- **The capacity policy** refuses an execution, or the execution waits. -/
theorem admitWithin_cases (env : Env) (entry : JobEntry) (capacity : CapacityPolicy)
    (hj : a.jobs.get p.jobId = some job) :
    (a.full p entry = true ∧ capacity = .skipNewest ∧
        (a.admitWithin env p entry capacity).2.ready = a.ready ∧
        (a.admitWithin env p entry capacity).2.jobs = a.jobs) ∨
      (¬ (a.full p entry = true ∧ capacity = .skipNewest) ∧
        (a.admitWithin env p entry capacity).2.Waiting p) := by
  have hqueue : ∀ b : SchedulerActor, (b.enqueue env p).Waiting p := fun b =>
    .inl (queued_insert.mpr (.inl rfl))
  have hblock : (a.block env p).Waiting p := by
    refine .inr ⟨pushBlocked p job, get_modify_of_get hj _, ?_⟩
    exact mem_append_right _ (mem_singleton_self p)
  unfold admitWithin
  cases hf : a.full p entry with
  | false => exact .inr ⟨fun h => Bool.false_ne_true h.1, hqueue a⟩
  | true =>
    cases capacity with
    | skipNewest => exact .inl ⟨rfl, rfl, rfl, rfl⟩
    | backpressure => exact .inr ⟨fun h => (nomatch h.2), hblock⟩
    | replaceOldestTrigger =>
      refine .inr ⟨fun h => (nomatch h.2), ?_⟩
      rw [if_pos rfl]
      dsimp only
      split
      · exact hqueue _
      · exact hblock

/-- If a waiting execution of the Job is removed by the call, the new one waits after it. -/
def ReplacementNoLoss (env : Env) (a : SchedulerActor) (p : PendingExecution)
    (forceBackpressure : Bool) : Prop :=
  (∃ q, q.jobId = p.jobId ∧ a.Waiting q ∧
      ¬ (a.admitPending env p forceBackpressure).2.Waiting q) →
    (a.admitPending env p forceBackpressure).2.Waiting p

/-- The executions in the queue that a normal one of the Job does not replace. -/
def SchedulerActor.keptBeside (a : SchedulerActor) (jobId : JobId) : List PendingExecution :=
  a.ready.pending.values.filter fun q => ¬ (q.jobId = jobId ∧ q.kind = .normal)

/-- A normal execution replaces another one of its Job, which keeps the latest and skips the newest,
    and those it does not replace fill the queue, or the Job's share of it, by themselves. -/
def Overcrowded (a : SchedulerActor) (p : PendingExecution) (forceBackpressure : Bool) : Prop :=
  ∃ job, a.jobs.get p.jobId = some job ∧ job.coalescing = .keepLatest ∧
    job.capacity = .skipNewest ∧ p.kind = .normal ∧ forceBackpressure = false ∧
    (∃ q, q.jobId = p.jobId ∧ q.kind = .normal ∧ a.Waiting q) ∧
    (a.config.globalMaxPending ≤ (a.keptBeside p.jobId).length ∨
      a.jobLimit job ≤ (a.keptBeside p.jobId).countP (·.jobId = p.jobId))

theorem full_coalesce (env : Env) (a : SchedulerActor) (p : PendingExecution) (job : JobEntry) :
    (a.coalesce env p job).full p job = true ↔
      a.config.globalMaxPending ≤ (a.keptBeside p.jobId).length ∨
        a.jobLimit job ≤ (a.keptBeside p.jobId).countP (·.jobId = p.jobId) := by
  obtain ⟨hready, -, hconfig⟩ := coalesce_frame env a p job
  have hvalues : (a.coalesce env p job).ready.pending.values = a.keptBeside p.jobId := by
    rw [hready]
    unfold keptBeside Table.values ReadyQueue.retain Table.retain
    rw [filter_map]
    refine congrArg _ (filter_congr fun e _ => ?_)
    simp [ReadyQueue.replaceableOf, PendingKind.isReplaceableTrigger]
  have hlen : (a.coalesce env p job).ready.len = (a.keptBeside p.jobId).length := by
    rw [← hvalues]
    exact (length_map _).symm
  unfold full jobLimit ReadyQueue.countJob Table.count
  rw [Bool.or_eq_true, decide_eq_true_iff, decide_eq_true_iff, hconfig, hlen, hvalues]

/-- **Replacement is loss** exactly when the queue is overcrowded. -/
theorem replacement_no_loss_iff (env : Env) (a : SchedulerActor) (p : PendingExecution)
    (forceBackpressure : Bool) : ReplacementNoLoss env a p forceBackpressure ↔
      ¬ Overcrowded a p forceBackpressure := by
  unfold ReplacementNoLoss Overcrowded admitPending
  cases hj : a.jobs.get p.jobId with
  | none => simp
  | some job =>
    dsimp only
    by_cases hlatest : job.coalescing = .keepLatest ∧ p.kind.isReplaceableTrigger = true
    · have hk : p.kind = .normal := of_decide_eq_true hlatest.2
      have hget : ∃ job', (a.coalesce env p job).jobs.get p.jobId = some job' := by
        rw [(coalesce_frame env a p job).2.1]
        exact ⟨_, get_modify_of_get hj _⟩
      obtain ⟨job', hget⟩ := hget
      rw [if_pos hlatest, hlatest.2, Bool.not_true, Bool.or_false]
      rcases admitWithin_cases env job (if forceBackpressure = true then .backpressure
        else job.capacity) hget with ⟨hfull, hcap, hr, hjobs⟩ | ⟨hroom, hwaits⟩
      · have hgone : ∀ {q}, q.jobId = p.jobId → (((a.coalesce env p job).admitWithin env p job
            (if forceBackpressure = true then .backpressure else job.capacity)).2.Waiting q ↔
              a.Waiting q ∧ q.kind ≠ .normal) := fun hq =>
          (waiting_congr hr hjobs).trans (waiting_coalesce hj hq)
        have hskip : forceBackpressure = false ∧ job.capacity = .skipNewest := by
          cases forceBackpressure with
          | true => cases hcap
          | false => exact ⟨rfl, hcap⟩
        constructor
        · rintro h ⟨-, -, -, -, -, -, ⟨q, hq, hqk, hw⟩, -⟩
          exact ((hgone rfl).mp (h ⟨q, hq, hw, fun hw' => ((hgone hq).mp hw').2 hqk⟩)).2 hk
        · rintro h ⟨q, hq, hw, hnot⟩
          refine absurd ⟨job, rfl, hlatest.1, hskip.2, hk, hskip.1, ⟨q, hq, ?_, hw⟩,
            (full_coalesce env a p job).mp hfull⟩ h
          by_contra hqk
          exact hnot ((hgone hq).mpr ⟨hw, hqk⟩)
      · refine iff_of_true (fun _ => hwaits) ?_
        rintro ⟨_, hj', -, hcap, -, rfl, -, hfull⟩
        cases hj'
        exact hroom ⟨(full_coalesce env a p job).mpr hfull, hcap⟩
    · refine iff_of_true ?_ ?_
      · rw [if_neg hlatest]
        rcases admitWithin_cases env job _ hj with ⟨-, -, hr, hjobs⟩ | ⟨-, hwaits⟩
        · rintro ⟨q, -, hw, hnot⟩
          exact absurd ((waiting_congr hr hjobs).mpr hw) hnot
        · exact fun _ => hwaits
      · rintro ⟨_, hj', hc, -, hk, -⟩
        cases hj'
        exact hlatest ⟨hc, decide_eq_true hk⟩

section Crowded

/-- One slot, taken by a Job that runs every second and has a second execution waiting. -/
def busySecond : List Message :=
  [.command (.add (some 2) 1 true everySecond poll {}), .expired [0], .expired [1]]

def latestOnly : JobOptions := { capacity := some .skipNewest }

/-- Another Job waits behind it; then the queue is cut down to a single place. -/
def cutDown : List Message :=
  busySecond ++ [.command (.add (some 1) 1 true everySecond poll latestOnly), .expired [3],
    .command (.updateConfig 0 { globalMaxPending := some 1 })]

/-- The execution its next timer makes. -/
def nextPoll : PendingExecution := ⟨1, 1, 3, 1, 10 ^ 9, .normal, .normal, 4⟩

/-- **Both are gone.** When the timer of the second Job expires again, the execution that waits makes
    room; the queue is still full, and the new one is skipped. -/
theorem skipped_after_replacing :
    let a := after .still { globalConcurrency := 1 } cutDown
    let b := after .still { globalConcurrency := 1 } (cutDown ++ [.expired [4]])
    a.ready.countJob 1 = 1 ∧ b.issued = a.issued + 1 ∧ b.ready.countJob 1 = 0 ∧
      (b.jobs.get 1).map (·.blocked) = some [] ∧ ¬ ReplacementNoLoss .still a nextPoll false := by
  intro a b
  refine ⟨by decide +kernel, by decide +kernel, by decide +kernel, by decide +kernel, fun h => ?_⟩
  have hqueue : (a.admitPending .still nextPoll false).2.ready.pending.values.filter
      (·.jobId = 1) = [] := by decide +kernel
  have hblocked : ((a.admitPending .still nextPoll false).2.jobs.get 1).map (·.blocked) =
      some [] := by decide +kernel
  have hgone : ∀ q, q.jobId = 1 → ¬ (a.admitPending .still nextPoll false).2.Waiting q := by
    rintro q hq (hw | ⟨job, hj, hin⟩)
    · have hkeep := filter_eq_nil_iff.mp hqueue q (mem_values_iff.mpr ⟨_, hw⟩)
      exact hkeep (decide_eq_true hq)
    · rw [hq] at hj
      rw [hj] at hblocked
      have hnil : job.blocked = [] := Option.some.inj hblocked
      rw [hnil] at hin
      cases hin
  exact hgone nextPoll rfl (h ⟨{ nextPoll with runId := 2, scheduledAt := 0, batchId := 3 }, rfl,
    .inl (by unfold Queued; decide +kernel), hgone _ rfl⟩)

end Crowded

/-! ## 2. Resource-only updates -/

/-- The Job's normal executions in the queue. -/
def SchedulerActor.QueuedNormal (a : SchedulerActor) (jobId : JobId) (q : PendingExecution) : Prop :=
  a.Queued q ∧ q.jobId = jobId ∧ q.kind = .normal

/-- If normal executions of the Job were queued in `a`, it has kept those its policy keeps now: the
    newest, or all of them. -/
def TriggersKept (a a' : SchedulerActor) (jobId : JobId) : Prop :=
  ∀ job, a'.jobs.get jobId = some job → (∃ q, a.QueuedNormal jobId q) →
    match job.coalescing with
    | .keepLatest => ∃ q, a.QueuedNormal jobId q ∧
        (∀ q', a.QueuedNormal jobId q' → q'.scheduledAt ≤ q.scheduledAt) ∧
        a'.Queued (ReadyQueue.restamp jobId job.version job.priority q)
    | .keepAll => ∀ q, a.QueuedNormal jobId q →
        a'.Queued (ReadyQueue.restamp jobId job.version job.priority q)

theorem policies_updatedEntry (env : Env) (a : SchedulerActor) (jobId : JobId) (patch : JobPatch)
    (plan : JobUpdatePlan) (job : JobEntry) :
    (a.updatedEntry env jobId patch plan job).coalescing = patch.coalescing.getD job.coalescing ∧
      (a.updatedEntry env jobId patch plan job).priority = patch.priority.getD job.priority := by
  unfold updatedEntry updateWork
  split <;> split <;> exact ⟨rfl, rfl⟩

/-- **The newest trigger** survives a resource-only update exactly when all of them do. -/
theorem newest_trigger_kept_iff (env : Env) (a : SchedulerActor) (jobId : JobId)
    (expectedVersion : Nat) (patch : JobPatch) (snapshot : JobSnapshot) (job : JobEntry)
    (hj : a.jobs.get jobId = some job) (htrigger : patch.trigger = none) (htask : patch.task = none)
    (hok : (a.updateJob env jobId expectedVersion patch).1 = .ok snapshot) :
    TriggersKept a (a.updateJob env jobId expectedVersion patch).2 jobId ↔
      (∃ q, a.QueuedNormal jobId q) → patch.coalescing.getD job.coalescing = .keepAll := by
  cases hplan : a.planJobUpdate env jobId expectedVersion patch with
  | error =>
    rw [updateJob_error env hplan] at hok
    cases hok
  | ok plan =>
    obtain ⟨-, -, -, -, -, hpt, hpk, -⟩ := planJobUpdate_ok env hplan
    have hget := get_commitUpdate env (a := a.tick) patch plan hj jobId
    have hready : (a.tick.commitUpdate env jobId patch plan job).ready = _ :=
      Waits.ready_commitUpdate patch plan
    obtain ⟨hc, hp⟩ := policies_updatedEntry env a.tick jobId patch plan job
    rw [if_pos rfl] at hget
    rw [updateReady, if_neg (by simp [hpt, hpk, htrigger, htask])] at hready
    rw [updateJob_commit env hplan hj]
    unfold TriggersKept
    simp only [hget, Option.some.injEq, forall_eq', hc, hp, version_updatedEntry]
    refine imp_congr_right fun hex => ?_
    cases hpolicy : patch.coalescing.getD job.coalescing with
    | keepAll =>
      refine iff_of_true (fun q hq => ?_) rfl
      rw [if_neg (by simp [patchEntry, hpolicy])] at hready
      unfold Queued
      rw [hready]
      exact queued_migrateJob.mpr ⟨q, hq.1, rfl⟩
    | keepLatest =>
      refine iff_of_false ?_ (by simp)
      rintro ⟨q, ⟨-, hid, hk⟩, -, hq⟩
      rw [if_pos (by simp [patchEntry, hpolicy])] at hready
      unfold Queued at hq
      rw [hready] at hq
      have hkept := (queued_retain (a := { a with
        ready := a.ready.migrateJob jobId plan.nextVersion (patch.priority.getD job.priority) }).mp
          hq).2
      simp [ReadyQueue.replaceableOf, ReadyQueue.restamp, PendingKind.isReplaceableTrigger, hid, hk]
        at hkept

section Busy

/-- Updated to keep all, the Job keeps its waiting execution. -/
theorem kept_by_keep_all :
    let a := after .still { globalConcurrency := 1 } busySecond
    a.ready.countJob 2 = 1 ∧
      TriggersKept a (a.updateJob .still 2 1 { coalescing := some .keepAll }).2 2 := by
  intro a
  refine ⟨by decide +kernel, ?_⟩
  cases hj : a.jobs.get 2 with
  | none => exact absurd hj (by decide +kernel)
  | some job =>
    cases hok : (a.updateJob .still 2 1 { coalescing := some .keepAll }).1 with
    | error =>
      have hdone : (a.updateJob .still 2 1 { coalescing := some .keepAll }).1.isOk = true := by
        decide +kernel
      rw [hok] at hdone
      cases hdone
    | ok snapshot =>
      exact (newest_trigger_kept_iff .still a 2 1 _ snapshot job hj rfl rfl hok).mpr fun _ => rfl

/-- **A change of priority** drops the only execution that waits. -/
theorem priority_change_drops_trigger :
    let a := after .still { globalConcurrency := 1 } busySecond
    let b := (a.updateJob .still 2 1 { priority := some ⟨7, by decide⟩ }).2
    a.ready.countJob 2 = 1 ∧ b.ready.len = 0 ∧
      (b.jobs.get 2).map (·.coalescing) = some .keepLatest ∧ ¬ TriggersKept a b 2 := by
  intro a b
  have hempty : b.ready.pending.values = [] := by decide +kernel
  have hpolicy : (b.jobs.get 2).map (·.coalescing) = some .keepLatest := by decide +kernel
  refine ⟨by decide +kernel, by decide +kernel, hpolicy, fun h => ?_⟩
  obtain ⟨job, hj, hc⟩ := Option.map_eq_some_iff.mp hpolicy
  have hkept := h job hj ⟨⟨2, 1, 1, 1, 10 ^ 9, .normal, .normal, 2⟩,
    by unfold Queued; decide +kernel, rfl, rfl⟩
  rw [hc] at hkept
  obtain ⟨q, -, -, hq⟩ := hkept
  have hmem := mem_values_iff.mpr ⟨_, hq⟩
  rw [hempty] at hmem
  cases hmem

end Busy

end Smalux.Scheduler
