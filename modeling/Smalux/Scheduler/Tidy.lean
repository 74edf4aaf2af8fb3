/-
  Subject:   What a Job owns, and that only Enabled Jobs own anything.

  A Job owns timers in the delay queue, retry timers, executions in the queue and executions it
  holds back. `TidyAt` says of one Job that all its timers are stored and current, and that it owns
  something only while it is Enabled. The operations of the actor work on one Job at a time
  (`Only`), so each is looked at for that Job alone (`Tidy.only`).

  * `OwnsNothing` -- the Job owns nothing at all;
  * `TidyAt`, `Tidy` -- the invariant;
  * one lemma per operation.
-/
import Smalux.Scheduler.Separation
import Smalux.Scheduler.CommandRule

namespace Smalux.Scheduler

open Lib SchedulerActor Table DelayQueue

variable {env : Env} {a a' : SchedulerActor} {id : JobId} {job : JobEntry} {kind : TimerKind}
  {runId : RunId}

/-! ## 1. The invariant -/

/-- The Job is there and Enabled. -/
def SchedulerActor.EnabledJob (a : SchedulerActor) (id : JobId) : Prop :=
  ∃ job, a.jobs.get id = some job ∧ job.state = .enabled

theorem not_enabledJob (hj : a.jobs.get id = some job) (hs : job.state ≠ .enabled) :
    ¬ a.EnabledJob id := by
  rintro ⟨job', hj', hs'⟩
  cases hj.symm.trans hj'
  exact hs hs'

theorem SchedulerActor.EnabledJob.state (h : a.EnabledJob id) (hj : a.jobs.get id = some job) :
    job.state = .enabled := by
  by_contra hs
  exact not_enabledJob hj hs h

/-- No timer, no retry timer, nothing queued, nothing held back. -/
structure OwnsNothing (a : SchedulerActor) (id : JobId) : Prop where
  timers : ∀ key e, a.timers.get key = some e → e.jobId ≠ id
  retryTimers : ∀ r t, a.retryTimers.get r = some t → t.jobId ≠ id
  queued : ∀ p, a.Queued p → p.jobId ≠ id
  job : ∀ job, a.jobs.get id = some job → job.normalTimerKey = none ∧ job.blocked = []

structure TidyAt (a : SchedulerActor) (id : JobId) : Prop where
  own : OwnKeys a id
  stored : Stored a id
  off : ∀ job, a.jobs.get id = some job → job.state ≠ .enabled →
    job.normalTimerKey = none ∧ job.blocked = []
  unplanned : ∀ job, a.jobs.get id = some job → job.nextRunAt = none → job.normalTimerKey = none
  blocked : ∀ job, a.jobs.get id = some job → ∀ p ∈ job.blocked,
    p.jobId = id ∧ p.version = job.version
  retry : ∀ r t, a.retryTimers.get r = some t → t.jobId = id → a.EnabledJob id
  ready : ∀ p, a.Queued p → p.jobId = id → a.EnabledJob id

def Tidy (a : SchedulerActor) : Prop := ∀ id, TidyAt a id

/-- The part of a Job the invariant is about. -/
structure JobWork where
  state : JobState
  version : Nat
  normalTimerKey : Option Nat
  nextRunAt : Option DateTime
  blocked : List PendingExecution

def JobEntry.work (job : JobEntry) : JobWork :=
  ⟨job.state, job.version, job.normalTimerKey, job.nextRunAt, job.blocked⟩

namespace TidyAt

/-- **Only Enabled Jobs own anything.** -/
theorem ownsNothing (h : TidyAt a id) (hoff : ¬ a.EnabledJob id) : OwnsNothing a id where
  timers := fun key e he hid => by
    obtain ⟨job, hj, -, hst⟩ := h.stored key e he hid
    rcases hst.or with hkey | ⟨r, t, ht, htid, -⟩
    · rw [(h.off job hj fun hs => hoff ⟨job, hj, hs⟩).1] at hkey
      cases hkey
    · exact hoff (h.retry r t ht htid)
  retryTimers := fun r t ht hid => hoff (h.retry r t ht hid)
  queued := fun p hp hid => hoff (h.ready p hp hid)
  job := fun job hj => h.off job hj fun hs => hoff ⟨job, hj, hs⟩

theorem of_nothing (h : OwnsNothing a id) : TidyAt a id where
  own := .of_none (fun job hj => (h.job job hj).1) h.retryTimers
  stored := fun key e he hid => absurd hid (h.timers key e he)
  off := fun job hj _ => h.job job hj
  unplanned := fun job hj _ => (h.job job hj).1
  blocked := fun job hj p hp => by
    rw [(h.job job hj).2] at hp
    cases hp
  retry := fun r t ht hid => absurd hid (h.retryTimers r t ht)
  ready := fun p hp hid => absurd hid (h.queued p hp)

/-- The invariant of a Job that is there. -/
theorem of_job (hj : a.jobs.get id = some job) (own : OwnKeys a id)
    (stored : ∀ key e, a.timers.get key = some e → e.jobId = id →
      job.version = e.version ∧ KeyStored a id job key e.kind)
    (off : job.state ≠ .enabled → job.normalTimerKey = none ∧ job.blocked = [])
    (unplanned : job.nextRunAt = none → job.normalTimerKey = none)
    (blocked : ∀ p ∈ job.blocked, p.jobId = id ∧ p.version = job.version)
    (retry : ∀ r t, a.retryTimers.get r = some t → t.jobId = id → job.state = .enabled)
    (ready : ∀ p, a.Queued p → p.jobId = id → job.state = .enabled) : TidyAt a id := by
  have hself : ∀ job', a.jobs.get id = some job' → job = job' :=
    fun job' hj' => Option.some.inj (hj.symm.trans hj')
  exact
    { own := own
      stored := fun key e he hid => ⟨job, hj, stored key e he hid⟩
      off := fun job' hj' => hself job' hj' ▸ off
      unplanned := fun job' hj' => hself job' hj' ▸ unplanned
      blocked := fun job' hj' => hself job' hj' ▸ blocked
      retry := fun r t ht hid => ⟨job, hj, retry r t ht hid⟩
      ready := fun p hp hid => ⟨job, hj, ready p hp hid⟩ }

theorem stored_at (h : TidyAt a id) (hj : a.jobs.get id = some job) {key : Nat} {e : TimerEntry}
    (he : a.timers.get key = some e) (hid : e.jobId = id) :
    job.version = e.version ∧ KeyStored a id job key e.kind := by
  obtain ⟨job', hj', hst⟩ := h.stored key e he hid
  cases hj.symm.trans hj'
  exact hst

/-- What happens to another Job does not matter. -/
theorem other {j : JobId} (h : TidyAt a j) (ho : Only id a a') (hne : j ≠ id) : TidyAt a' j := by
  have hjob := ho.jobs j hne
  have hen : a.EnabledJob j → a'.EnabledJob j := fun ⟨job, hj, hs⟩ => ⟨job, hjob.trans hj, hs⟩
  -- a timer behind a key that was handed out before is an old one
  have hback : ∀ key e, key < a.timers.nextKey → a'.timers.get key = some e →
      a.timers.get key = some e := by
    intro key e hlt he
    by_cases hid : e.jobId = id
    · exact (ho.fresh key e hid he).resolve_right (Nat.not_le.mpr hlt)
    · exact (ho.timers key e hid).mp he
  refine ⟨⟨fun job key hj hk => ?_, fun r t ht hid => ?_⟩, fun key e he hid => ?_,
    fun job hj => h.off job (hjob ▸ hj), fun job hj => h.unplanned job (hjob ▸ hj),
    fun job hj => h.blocked job (hjob ▸ hj), fun r t ht hid => ?_, fun p hp hid => ?_⟩
  · obtain ⟨hlt, hn⟩ := h.own.normal job key (hjob ▸ hj) hk
    exact ⟨Nat.lt_of_lt_of_le hlt ho.nextKey, fun e he => hn e (hback key e hlt he)⟩
  · obtain ⟨hlt, hn⟩ := h.own.retry r t ((ho.retryTimers r t (by rw [hid]; exact hne)).mp ht) hid
    exact ⟨Nat.lt_of_lt_of_le hlt ho.nextKey, fun e he => hn e (hback t.key e hlt he)⟩
  · obtain ⟨job, hj, hv, hst⟩ := h.stored key e ((ho.timers key e (by rw [hid]; exact hne)).mp he) hid
    exact ⟨job, hjob.trans hj, hv, hst.mono (fun hkey => hkey) fun r t ht htid _ =>
      (ho.retryTimers r t (by rw [htid]; exact hne)).mpr ht⟩
  · exact hen (h.retry r t ((ho.retryTimers r t (by rw [hid]; exact hne)).mp ht) hid)
  · exact hen (h.ready p (ho.queued p (by rw [hid]; exact hne) hp) hid)

/-- Executions may leave the queue, and the rest of the Job may change. -/
theorem frame (h : TidyAt a id)
    (hj : (a'.jobs.get id).map JobEntry.work = (a.jobs.get id).map JobEntry.work)
    (ht : a'.timers = a.timers) (hr : a'.retryTimers = a.retryTimers)
    (hq : ∀ p, a'.Queued p → a.Queued p) : TidyAt a' id := by
  cases hg : a.jobs.get id with
  | none =>
    have hnone : a'.jobs.get id = none := by simpa [hg] using hj
    have hn := h.ownsNothing fun ⟨job, hj, _⟩ => by cases hg.symm.trans hj
    exact of_nothing ⟨fun key e he => hn.timers key e (ht ▸ he),
      fun r t hrow => hn.retryTimers r t (hr ▸ hrow), fun p hp => hn.queued p (hq p hp),
      fun job hj => by cases hnone.symm.trans hj⟩
  | some job =>
    rw [hg] at hj
    obtain ⟨job', hg', hw⟩ := Option.map_eq_some_iff.mp hj
    obtain ⟨hs, hv, hk, hn, hb⟩ := JobWork.mk.inj hw
    have hen : a.EnabledJob id → job'.state = .enabled := fun he => hs.trans (he.state hg)
    refine .of_job hg' (h.own.frame (fun _ key hgot hkey => ?_) ht fun _ _ hrow => hr ▸ hrow)
      (fun key e he hid => ?_) (fun hne => ?_) (fun hno => ?_) (fun p hp => ?_)
      (fun r t hrow hid => hen (h.retry r t (hr ▸ hrow) hid))
      fun p hp hid => hen (h.ready p (hq p hp) hid)
    · cases hg'.symm.trans hgot
      exact ⟨job, hg, hk.symm.trans hkey⟩
    · obtain ⟨hversion, hst⟩ := h.stored_at hg (ht ▸ he) hid
      exact ⟨hv.trans hversion, hst.mono (hk.trans)
        fun r t hrow _ _ => by rw [hr]; exact hrow⟩
    · rw [hk, hb]
      exact h.off job hg (hs ▸ hne)
    · rw [hk]
      exact h.unplanned job hg (hn ▸ hno)
    · rw [hv]
      exact h.blocked job hg p (hb ▸ hp)

/-! ## 2. Timers -/

theorem scheduleNormal (h : TidyAt a id) (he : a.EnabledJob id) (runAt : DateTime)
    (hkind : kind = .normal ∨ kind = .runNow) : TidyAt (a.scheduleNormal env id runAt kind) id := by
  obtain ⟨job, hj, hs⟩ := he
  have htimers := timers_scheduleNormal env a id runAt kind hj
  have hrows := retryTimers_scheduleNormal env a id runAt kind
  have hget : (a.scheduleNormal env id runAt kind).jobs.get id =
      some (scheduleEntry a.timers.nextKey runAt job) := by
    rw [get_jobs_scheduleNormal, if_pos rfl, hj]
    rfl
  generalize a.scheduleNormal env id runAt kind = b at htimers hrows hget ⊢
  have hnext : b.timers.nextKey = a.timers.nextKey + 1 := by
    rw [htimers, nextKey_insertAt, nextKey_removeKey]
  refine .of_job hget ⟨fun job' key hj' hk => ?_, fun r t ht hid => ?_⟩ (fun key e hg hid => ?_)
    (absurd hs) (nofun) (h.blocked job hj) (fun _ _ _ _ => hs)
    fun _ _ _ => hs
  · cases hget.symm.trans hj'
    cases hk
    refine ⟨by omega, fun e hg => ?_⟩
    rw [htimers] at hg
    rcases get_replace.mp hg with ⟨-, rfl⟩ | ⟨-, hold⟩
    · exact ⟨rfl, hkind⟩
    · exact absurd (lt_nextKey hold) (Nat.lt_irrefl _)
  · obtain ⟨hlt, hn⟩ := h.own.retry r t (hrows ▸ ht) hid
    refine ⟨by omega, fun e hg => ?_⟩
    rw [htimers] at hg
    rcases get_replace.mp hg with ⟨hkey, -⟩ | ⟨-, hold⟩
    · omega
    · exact hn e hold
  · rw [htimers] at hg
    rcases get_replace.mp hg with ⟨hkey, rfl⟩ | ⟨hkey, hold⟩
    · refine ⟨rfl, ?_⟩
      rw [hkey]
      rcases hkind with rfl | rfl <;> rfl
    · obtain ⟨hv, hst⟩ := h.stored_at hj hold hid
      exact ⟨hv, hst.mono (fun hst => absurd hst hkey) fun r t ht _ _ => by rw [hrows]; exact ht⟩

/-- The retry timer of a run that has none. -/
theorem scheduleRetry (h : TidyAt a id) (hj : a.jobs.get id = some job) (hs : job.state = .enabled)
    (hrow : a.retryTimers.get runId = none) (scheduledAt : DateTime) (attempt : Nat)
    (runAt : DateTime) :
    TidyAt (a.scheduleRetry env id job.version runId scheduledAt attempt runAt) id := by
  have htimers := timers_scheduleRetry env a id job.version scheduledAt attempt runAt hrow
  have hrows := retryTimers_scheduleRetry env a id job.version runId scheduledAt attempt runAt
  have hget : (a.scheduleRetry env id job.version runId scheduledAt attempt runAt).jobs.get id =
      some job := hj
  generalize a.scheduleRetry env id job.version runId scheduledAt attempt runAt = b
    at htimers hrows hget ⊢
  have hnext : b.timers.nextKey = a.timers.nextKey + 1 := by
    rw [htimers, nextKey_insertAt, nextKey_removeKey]
  have hold : ∀ key e, key < a.timers.nextKey → b.timers.get key = some e →
      a.timers.get key = some e := by
    intro key e hlt hg
    rw [htimers] at hg
    rcases get_replace.mp hg with ⟨hkey, -⟩ | ⟨-, hg⟩
    · omega
    · exact hg
  refine .of_job hget ⟨fun job' key hj' hk => ?_, fun r t ht hid => ?_⟩ (fun key e hg hid => ?_)
    (h.off job hj) (h.unplanned job hj) (h.blocked job hj) (fun _ _ _ _ => hs) fun _ _ _ => hs
  · cases hget.symm.trans hj'
    obtain ⟨hlt, hn⟩ := h.own.normal job key hj hk
    exact ⟨by omega, fun e hg => hn e (hold key e hlt hg)⟩
  · rw [hrows] at ht
    rcases get_insert_eq_some.mp ht with ⟨rfl, rfl⟩ | ⟨-, ht⟩
    · refine ⟨by rw [hnext]; exact Nat.lt_succ_self _, fun e hg => ?_⟩
      rw [htimers] at hg
      rcases get_replace.mp hg with ⟨-, rfl⟩ | ⟨-, hg⟩
      · exact ⟨rfl, scheduledAt, attempt, rfl⟩
      · exact absurd (lt_nextKey hg) (Nat.lt_irrefl _)
    · obtain ⟨hlt, hn⟩ := h.own.retry r t ht hid
      exact ⟨by omega, fun e hg => hn e (hold t.key e hlt hg)⟩
  · rw [htimers] at hg
    rcases get_replace.mp hg with ⟨hkey, rfl⟩ | ⟨-, hg⟩
    · refine ⟨rfl, ⟨id, a.timers.nextKey, runAt⟩, ?_, rfl, hkey.symm⟩
      rw [hrows, get_insert, if_pos rfl]
    · obtain ⟨hv, hst⟩ := h.stored_at hj hg hid
      refine ⟨hv, hst.mono (fun hkey => hkey) fun r t ht _ _ => ?_⟩
      rw [hrows]
      refine get_insert_eq_some.mpr (.inr ⟨fun hr => ?_, ht⟩)
      rw [hr, hrow] at ht
      cases ht

/-- The Job's timer has left the queue, and is forgotten. -/
theorem clearNormalTimer (h : TidyAt a id) (hj : a.jobs.get id = some job)
    (hdead : ∀ key, job.normalTimerKey = some key → a.timers.get key = none) :
    TidyAt (a.modifyJob id SchedulerActor.clearNormalTimer) id := by
  have hget := get_modify_of_get hj SchedulerActor.clearNormalTimer
  have hen : a.EnabledJob id → job.state = .enabled := fun he => he.state hj
  refine .of_job hget (h.own.frame (fun job' key hj' hk => ?_) rfl fun _ _ hrow => hrow)
    (fun key e he hid => ?_) (fun hs => ⟨rfl, (h.off job hj hs).2⟩) (fun _ => rfl)
    (h.blocked job hj) (fun r t ht hid => hen (h.retry r t ht hid))
    fun p hp hid => hen (h.ready p hp hid)
  · cases hget.symm.trans hj'
    cases hk
  · obtain ⟨hv, hst⟩ := h.stored_at hj he hid
    refine ⟨hv, hst.mono (fun hkey => ?_) fun _ _ ht _ _ => ht⟩
    cases (hdead key hkey).symm.trans he

/-- A retry timer that has left the queue is forgotten. -/
theorem removeRetry (h : TidyAt a id)
    (hdead : ∀ t, a.retryTimers.get runId = some t → a.timers.get t.key = none) :
    TidyAt { a with retryTimers := a.retryTimers.remove runId } id := by
  have hsub : ∀ r t, (a.retryTimers.remove runId).get r = some t →
      a.retryTimers.get r = some t := fun r t ht => (get_remove_eq_some.mp ht).2
  refine ⟨h.own.frame (fun job key hj hk => ⟨job, hj, hk⟩) rfl hsub, fun key e he hid => ?_, h.off,
    h.unplanned, h.blocked, fun r t ht hid => h.retry r t (hsub r t ht) hid, h.ready⟩
  obtain ⟨job, hj, hv, hst⟩ := h.stored key e he hid
  refine ⟨job, hj, hv, hst.mono (fun hkey => hkey) fun r t ht _ htk => ?_⟩
  refine get_remove_eq_some.mpr ⟨fun hr => ?_, ht⟩
  rw [← htk] at he
  cases (hdead t (hr ▸ ht)).symm.trans he

/-! ## 3. Executions -/

/-- Executions move between the queue and the Job, which is Enabled if there are new ones. -/
theorem shifted {blocked new : List PendingExecution} (h : TidyAt a id)
    (hj : a.jobs.get id = some job) (hshift : Shifted a id job blocked new a')
    (hs : ∀ p ∈ new, job.state = .enabled)
    (hnew : ∀ p ∈ new, p.jobId = id ∧ p.version = job.version) : TidyAt a' id := by
  have hen : a.EnabledJob id → job.state = .enabled := fun he => he.state hj
  refine .of_job hshift.self (h.own.frame (fun job' key hj' hk => ?_) hshift.timers
      fun _ _ hrow => hshift.retryTimers ▸ hrow)
    (fun key e he hid => ?_) (fun hne => ⟨(h.off job hj hne).1, ?_⟩) (h.unplanned job hj)
    (fun p hp => ?_) (fun r t ht hid => hen (h.retry r t (hshift.retryTimers ▸ ht) hid))
    fun p hp hid => ?_
  · cases hshift.self.symm.trans hj'
    exact ⟨job, hj, hk⟩
  · obtain ⟨hv, hst⟩ := h.stored_at hj (hshift.timers ▸ he) hid
    exact ⟨hv, hst.mono (fun hkey => hkey) fun r t ht _ _ => by rw [hshift.retryTimers]; exact ht⟩
  · refine List.eq_nil_iff_forall_not_mem.mpr fun p hp => ?_
    rcases hshift.held p hp with hp | hp
    · rw [(h.off job hj hne).2] at hp
      cases hp
    · exact hne (hs p hp)
  · rcases hshift.held p hp with hp | hp
    · exact h.blocked job hj p hp
    · exact hnew p hp
  · rcases hshift.queued p hp with hp | hp
    · exact hen (h.ready p hp hid)
    · exact hs p hp

theorem requeued {blocked : List PendingExecution} (h : TidyAt a id)
    (hj : a.jobs.get id = some job) (hre : Requeued a id job blocked a') : TidyAt a' id := by
  refine h.shifted hj hre.shifted (fun p hp => ?_) (h.blocked job hj)
  -- only an Enabled Job holds anything back
  by_contra hs
  rw [(h.off job hj hs).2] at hp
  cases hp

end TidyAt

/-! ## 4. Jobs are changed -/

namespace OwnsNothing

/-- Timers and waiting executions may go, and the rest of the Job may change. -/
theorem frame (h : OwnsNothing a id)
    (hj : ∀ job', a'.jobs.get id = some job' → ∃ job, a.jobs.get id = some job ∧
      job'.normalTimerKey = job.normalTimerKey ∧ job'.blocked = job.blocked)
    (ht : ∀ key e, a'.timers.get key = some e → a.timers.get key = some e)
    (hr : ∀ r t, a'.retryTimers.get r = some t → a.retryTimers.get r = some t)
    (hq : ∀ p, a'.Queued p → a.Queued p) : OwnsNothing a' id where
  timers := fun key e he => h.timers key e (ht key e he)
  retryTimers := fun r t hrow => h.retryTimers r t (hr r t hrow)
  queued := fun p hp => h.queued p (hq p hp)
  job := fun job' hj' => by
    obtain ⟨job, hget, hkey, hblocked⟩ := hj job' hj'
    rw [hkey, hblocked]
    exact h.job job hget

theorem same (h : OwnsNothing a id) (hs : WorkAlike a a') : OwnsNothing a' id :=
  h.frame (fun job hj => ⟨job, hs.jobs ▸ hj, rfl, rfl⟩) (fun _ _ he => hs.timers ▸ he)
    (fun _ _ hr => hs.retryTimers ▸ hr) fun p hp => by
      unfold Queued at hp ⊢
      rwa [hs.ready] at hp

theorem modifyJob (h : OwnsNothing a id) {f : JobEntry → JobEntry}
    (hf : ∀ job, (f job).normalTimerKey = job.normalTimerKey ∧ (f job).blocked = job.blocked) :
    OwnsNothing (a.modifyJob id f) id := by
  refine h.frame (fun job' hj' => ?_) (fun _ _ he => he) (fun _ _ hr => hr) fun _ hq => hq
  have hget := get_modify a.jobs id id f
  rw [if_pos rfl] at hget
  obtain ⟨job, hj, rfl⟩ := Option.map_eq_some_iff.mp (hget.symm.trans hj')
  exact ⟨job, hj, hf job⟩

theorem commitDisable (h : TidyAt a id) (hj : a.jobs.get id = some job) (version : Nat)
    (reason : String) : OwnsNothing (a.commitDisable env id job version reason) id where
  timers := fun k e he => ((strip_timers h.own h.stored hj k e).mp he).2
  retryTimers := no_retry_after_clear
  queued := fun p hp => of_decide_eq_true (queued_retain.mp hp).2
  job := fun job' hj' => by
    rw [get_commitDisable, if_pos rfl, hj] at hj'
    cases hj'
    exact ⟨rfl, rfl⟩

theorem commitDelete (h : TidyAt a id) (hj : a.jobs.get id = some job) (cancelRunning : Bool) :
    OwnsNothing (a.commitDelete env id job cancelRunning) id := by
  obtain ⟨ht, hr, hq⟩ := Only.commitDelete_work env a id job cancelRunning
  refine ⟨fun k e he => ?_, fun r t hrow => ?_, fun p hp => ((hq p).mp hp).2, fun job' hj' => ?_⟩
  · exact ((strip_timers h.own h.stored hj k e).mp (ht ▸ he)).2
  · exact ((strip_retryTimers r t).mp (hr ▸ hrow)).2
  · rw [get_commitDelete, if_pos rfl] at hj'
    cases hj'

theorem dropWork (h : OwnsNothing a id) : OwnsNothing (a.dropWork id) id := by
  refine h.frame (fun job' hj' => ⟨job', hj', rfl, rfl⟩) (fun k e he => ?_) (fun r t hr => ?_)
    fun p hp => (queued_retain.mp hp).1
  · have he : (a.strip id none).timers.get k = some e := he
    exact ((strip_get k e).mp he).1
  · have hr : (a.strip id none).retryTimers.get r = some t := hr
    exact ((strip_retryTimers r t).mp hr).1

/-- The next timer is all the Job has. -/
theorem scheduleNormal (h : OwnsNothing a id) (he : a.EnabledJob id) (runAt : DateTime)
    (hkind : kind = .normal ∨ kind = .runNow) : TidyAt (a.scheduleNormal env id runAt kind) id :=
  (TidyAt.of_nothing h).scheduleNormal he runAt hkind

end OwnsNothing

namespace TidyAt

/-- The update leaves the Job without timers; what it keeps waiting is at the new version. -/
theorem applyPatch (h : TidyAt a id) (hj : a.jobs.get id = some job) (patch : JobPatch)
    (plan : JobUpdatePlan) : TidyAt (a.applyPatch env id patch plan job) id := by
  have hget := (get_applyPatch env patch plan hj id).trans (if_pos rfl)
  have hkey : (updateWork plan (patchEntry patch plan (a.now env) job)).normalTimerKey = none :=
    Only.updateWork_key patch plan (a.now env) job
  have hstate : (updateWork plan (patchEntry patch plan (a.now env) job)).state = job.state := by
    unfold updateWork
    split <;> rfl
  refine .of_job hget (Only.ownKeys_applyPatch hj patch plan) (fun k e he hid => ?_)
    (fun hs => ⟨hkey, ?_⟩) (fun _ => hkey) (fun p hp => ?_) (fun r t hr hid => ?_) fun p hp hid => ?_
  · exact absurd hid ((strip_timers h.own h.stored hj k e).mp he).2
  · have hnil := (h.off job hj (hstate ▸ hs)).2
    unfold updateWork
    split
    · rfl
    · rw [show (patchEntry patch plan (a.now env) job).blocked = [] from hnil]
      rfl
  · unfold updateWork at hp ⊢
    split at hp
    · cases hp
    · rename_i hsame
      rw [if_neg hsame]
      obtain ⟨q, hq, rfl⟩ := List.mem_map.mp hp
      exact ⟨(h.blocked job hj q hq).1, rfl⟩
  · exact absurd hid (no_retry_after_clear r t hr)
  · obtain ⟨q, hq, hqid, -⟩ := Only.queued_updateReady hp
    exact hstate.trans ((h.ready q hq (hqid.trans hid)).state hj)

theorem scheduleUpdated (h : TidyAt a id) (plan : JobUpdatePlan)
    (he : job.state = .enabled → a.EnabledJob id) :
    TidyAt (a.scheduleUpdated env id plan job) id := by
  unfold SchedulerActor.scheduleUpdated
  split
  · rename_i next hs _
    refine h.scheduleNormal (he hs) next ?_
    split
    · exact .inr rfl
    · exact .inl rfl
  · exact h

theorem commitUpdate (h : TidyAt a id) (hj : a.jobs.get id = some job) (patch : JobPatch)
    (plan : JobUpdatePlan) : TidyAt (a.commitUpdate env id patch plan job) id := by
  have hpatched : job.state = .enabled → (a.applyPatch env id patch plan job).EnabledJob id := by
    intro hs
    refine ⟨_, (get_applyPatch env patch plan hj id).trans (if_pos rfl), ?_⟩
    unfold updateWork
    split <;> exact hs
  have hscheduled : TidyAt
      ((a.applyPatch env id patch plan job).scheduleUpdated env id plan job) id :=
    (h.applyPatch hj patch plan).scheduleUpdated plan hpatched
  unfold SchedulerActor.commitUpdate SchedulerActor.cancelReplaced
  split <;> exact hscheduled.frame rfl rfl rfl fun _ hq => hq

/-- A Job that was not Enabled starts from nothing. -/
theorem commitEnable (h : TidyAt a id) (hj : a.jobs.get id = some job) (hs : job.state ≠ .enabled)
    (version : Nat) (now next : DateTime) :
    TidyAt ((a.dropWork id).tick.commitEnable env id version now next) id := by
  have hdropped : OwnsNothing (a.dropWork id).tick id :=
    (h.ownsNothing (not_enabledJob hj hs)).dropWork.same (.tick _)
  have henabled : ((a.dropWork id).tick.modifyJob id (enableEntry version now)).EnabledJob id :=
    ⟨_, get_modify_of_get hj _, rfl⟩
  have hnothing : OwnsNothing ((a.dropWork id).tick.modifyJob id (enableEntry version now)) id :=
    hdropped.modifyJob fun _ => ⟨rfl, rfl⟩
  have hnext : TidyAt (((a.dropWork id).tick.modifyJob id (enableEntry version now)).scheduleNormal
      env id next .normal) id := hnothing.scheduleNormal henabled next (.inl rfl)
  exact hnext.frame rfl rfl rfl fun _ hq => hq

theorem installJob (h : TidyAt a id) (hj : a.jobs.get id = none) (entry : JobEntry)
    (hkey : entry.normalTimerKey = none) (hblocked : entry.blocked = []) (enabled : Bool)
    (hs : enabled = true → entry.state = .enabled) (firstRun : DateTime) :
    TidyAt (a.installJob env id entry enabled firstRun) id := by
  have hget : ({ a with jobs := a.jobs.insert id entry } : SchedulerActor).jobs.get id =
      some entry := (get_insert a.jobs id id entry).trans (if_pos rfl)
  have hnothing : OwnsNothing { a with jobs := a.jobs.insert id entry } id := by
    have hbefore := h.ownsNothing fun ⟨job, hget, _⟩ => by rw [hj] at hget; cases hget
    refine ⟨hbefore.timers, hbefore.retryTimers, hbefore.queued, fun job hg => ?_⟩
    cases hget.symm.trans hg
    exact ⟨hkey, hblocked⟩
  cases enabled with
  | true =>
    have hnext : TidyAt (({ a with jobs := a.jobs.insert id entry } : SchedulerActor).scheduleNormal
        env id firstRun .normal) id :=
      hnothing.scheduleNormal ⟨entry, hget, hs rfl⟩ firstRun (.inl rfl)
    exact hnext.frame rfl rfl rfl fun _ hq => hq
  | false => exact (of_nothing hnothing).frame rfl rfl rfl fun _ hq => hq

end TidyAt

/-! ## 5. Commands -/

namespace Tidy

/-- **One Job at a time.** -/
theorem only (h : Tidy a) (ho : Only id a a') (hself : TidyAt a' id) : Tidy a' := fun j => by
  by_cases hj : j = id
  · rw [hj]
    exact hself
  · exact (h j).other ho hj

/-- Clock, events and counters do not matter, and executions may leave the queue. -/
theorem frame (h : Tidy a) (hj : a'.jobs = a.jobs) (ht : a'.timers = a.timers)
    (hr : a'.retryTimers = a.retryTimers) (hq : ∀ p, a'.Queued p → a.Queued p) : Tidy a' :=
  fun id => (h id).frame (by rw [hj]) ht hr hq

theorem same (h : Tidy a) (hs : WorkAlike a a') : Tidy a' :=
  h.frame hs.jobs hs.timers hs.retryTimers fun p hp => by
    unfold Queued at hp ⊢
    rwa [hs.ready] at hp

theorem commitDisable (h : Tidy a) (hj : a.jobs.get id = some job) (version : Nat)
    (reason : String) : Tidy (a.commitDisable env id job version reason) :=
  h.only (.commitDisable (h id).own hj version reason)
    (.of_nothing (.commitDisable (h id) hj version reason))

theorem commitDelete (h : Tidy a) (hj : a.jobs.get id = some job) (cancelRunning : Bool) :
    Tidy (a.commitDelete env id job cancelRunning) :=
  h.only (.commitDelete (h id).own hj cancelRunning)
    (.of_nothing (.commitDelete (h id) hj cancelRunning))

theorem dropWork (h : Tidy a) (hj : a.jobs.get id = some job) (hs : job.state ≠ .enabled) :
    Tidy (a.dropWork id) :=
  h.only (.dropWork (h id).own) (.of_nothing ((h id).ownsNothing (not_enabledJob hj hs)).dropWork)

/-- **Every command keeps the actor tidy.** -/
theorem rule (env : Env) (start : SchedulerActor) (command : Command) :
    CommandRule env start command Tidy where
  silent := fun _ _ _ _ h _ => h.same { WorkAlike.refl _ with }
  announce := fun _ h => h.same (.emit env _ _)
  install := fun enabled trigger task options now firstRun _ hj _ _ h => by
    refine h.only (.installJob (h _).own _ rfl enabled firstRun)
      ((h _).installJob hj _ rfl rfl enabled (fun he => ?_) firstRun)
    rw [he]
    rfl
  update := fun {a id job expectedVersion patch plan} _ _ hj h => by
    have ht : Tidy a.tick := h.same (.tick a)
    exact ht.only (.commitUpdate (ht id).own hj patch plan) ((ht id).commitUpdate hj patch plan)
  drop := fun _ hj hs h => h.dropWork hj hs
  enable := fun {a id job} next _ _ hj hs _ h => by
    have hdropped : Tidy (a.dropWork id).tick :=
      (h.dropWork hj hs).same (.tick _)
    exact hdropped.only (.commitEnable (hdropped id).own _ (a.now env) next)
      ((h id).commitEnable hj hs _ (a.now env) next)
  disable := fun reason _ hj _ h => h.commitDisable hj _ reason
  delete := fun _ hj h => h.commitDelete hj true

end Tidy

end Smalux.Scheduler
