/-
  Subject:   What an operation on one Job leaves to the others.

  Jobs share the delay queue, the retry index and the queue of due executions; each has its own
  entries there. An operation on one Job leaves the entries of the others alone, provided that the
  keys it removes stand for timers of its own (`OwnKeys`).

  * `Only` -- the operation touched one Job; it composes;
  * `strip_timers` -- removing what a Job stores removes exactly its timers, if every timer of it is
    stored (`Stored`);
  * `Only.commitDisable`, `Only.commitUpdate`, .. -- the operations.
-/
import Smalux.Scheduler.Waiting

namespace Smalux.Scheduler

open Lib SchedulerActor Table List DelayQueue

variable {a a' : SchedulerActor} {id : JobId} {job : JobEntry} {env : Env} {kind : TimerKind}

/-! ## 1. One Job's part -/

/-- The timer is the Job's normal one. -/
def TimerEntry.IsNormalOf (entry : TimerEntry) (jobId : JobId) : Prop :=
  entry.jobId = jobId ∧ (entry.kind = .normal ∨ entry.kind = .runNow)

/-- The timer is the retry of one execution of the Job. -/
def TimerEntry.IsRetryOf (entry : TimerEntry) (jobId : JobId) (runId : RunId) : Prop :=
  entry.jobId = jobId ∧ ∃ scheduledAt attempt, entry.kind = .retry runId scheduledAt attempt

/-- The keys a Job stores are its own: handed out already, and what they stand for is its timer. -/
structure OwnKeys (a : SchedulerActor) (id : JobId) : Prop where
  normal : ∀ job key, a.jobs.get id = some job → job.normalTimerKey = some key →
    key < a.timers.nextKey ∧ ∀ e, a.timers.get key = some e → e.IsNormalOf id
  retry : ∀ r t, a.retryTimers.get r = some t → t.jobId = id →
    t.key < a.timers.nextKey ∧ ∀ e, a.timers.get t.key = some e → e.IsRetryOf id r

/-- The key of the timer is stored where its kind belongs. -/
def KeyStored (a : SchedulerActor) (id : JobId) (job : JobEntry) (key : Nat) : TimerKind → Prop
  | .retry r _ _ => ∃ t, a.retryTimers.get r = some t ∧ t.jobId = id ∧ t.key = key
  | _ => job.normalTimerKey = some key

/-- Every timer of the Job is at its version and is stored. -/
def Stored (a : SchedulerActor) (id : JobId) : Prop :=
  ∀ key e, a.timers.get key = some e → e.jobId = id →
    ∃ job, a.jobs.get id = some job ∧ job.version = e.version ∧ KeyStored a id job key e.kind

section KeyStored

variable {job' : JobEntry} {key : Nat}

/-- In the Job, or in the row of a retry. -/
theorem KeyStored.or (h : KeyStored a id job key kind) : job.normalTimerKey = some key ∨
      ∃ r t, a.retryTimers.get r = some t ∧ t.jobId = id ∧ t.key = key := by
  cases kind with
  | retry r => exact .inr ⟨r, h⟩
  | normal | runNow => exact .inl h

/-- The Job's own key and the rows that hold the key are still there. -/
theorem KeyStored.mono (h : KeyStored a id job key kind)
    (hn : job.normalTimerKey = some key → job'.normalTimerKey = some key)
    (hr : ∀ r t, a.retryTimers.get r = some t → t.jobId = id → t.key = key →
      a'.retryTimers.get r = some t) : KeyStored a' id job' key kind := by
  cases kind with
  | retry r =>
    obtain ⟨t, ht, hid, hk⟩ := h
    exact ⟨t, hr r t ht hid hk, hid, hk⟩
  | normal | runNow => exact hn h

end KeyStored

/-- Only the part of one Job has changed. -/
structure Only (id : JobId) (a a' : SchedulerActor) : Prop where
  jobs : ∀ j, j ≠ id → a'.jobs.get j = a.jobs.get j
  timers : ∀ key e, e.jobId ≠ id → (a'.timers.get key = some e ↔ a.timers.get key = some e)
  fresh : ∀ key e, e.jobId = id → a'.timers.get key = some e →
    a.timers.get key = some e ∨ a.timers.nextKey ≤ key
  nextKey : a.timers.nextKey ≤ a'.timers.nextKey
  retryTimers : ∀ r t, t.jobId ≠ id → (a'.retryTimers.get r = some t ↔ a.retryTimers.get r = some t)
  queued : ∀ p, p.jobId ≠ id → a'.Queued p → a.Queued p

namespace Only

variable {a'' : SchedulerActor}

theorem refl (id : JobId) (a : SchedulerActor) : Only id a a :=
  ⟨fun _ _ => rfl, fun _ _ _ => Iff.rfl, fun _ _ _ h => .inl h, Nat.le_refl _,
    fun _ _ _ => Iff.rfl, fun _ _ h => h⟩

theorem trans (h : Only id a a') (h' : Only id a' a'') : Only id a a'' where
  jobs := fun j hj => (h'.jobs j hj).trans (h.jobs j hj)
  timers := fun key e he => (h'.timers key e he).trans (h.timers key e he)
  fresh := fun key e he hg => by
    rcases h'.fresh key e he hg with hg | hg
    · exact h.fresh key e he hg
    · exact .inr (Nat.le_trans h.nextKey hg)
  nextKey := Nat.le_trans h.nextKey h'.nextKey
  retryTimers := fun r t ht => (h'.retryTimers r t ht).trans (h.retryTimers r t ht)
  queued := fun p hp hq => h.queued p hp (h'.queued p hp hq)

/-- The operation left timers, retry index and queue alone. -/
theorem of_jobs (hj : ∀ j, j ≠ id → a'.jobs.get j = a.jobs.get j) (ht : a'.timers = a.timers)
    (hr : a'.retryTimers = a.retryTimers) (hq : a'.ready = a.ready) : Only id a a' where
  jobs := hj
  timers := fun key e _ => by rw [ht]
  fresh := fun key e _ hg => .inl (by rwa [ht] at hg)
  nextKey := Nat.le_of_eq (by rw [ht])
  retryTimers := fun r t _ => by rw [hr]
  queued := fun p _ hp => by unfold Queued at hp ⊢; rwa [hq] at hp

theorem modifyJob (f : JobEntry → JobEntry) : Only id a (a.modifyJob id f) :=
  .of_jobs (fun j hj => (get_modify a.jobs id j f).trans (if_neg hj)) rfl rfl rfl

theorem emit (kind : SchedulerEventKind) : Only id a (a.emit env kind) :=
  .of_jobs (fun _ _ => rfl) rfl rfl rfl

theorem cancelJobVersion (jobId : JobId) (version : Nat) :
    Only id a (a.cancelJobVersion jobId version) := .of_jobs (fun _ _ => rfl) rfl rfl rfl

theorem shifted {blocked new : List PendingExecution} (h : Shifted a id job blocked new a')
    (hnew : ∀ p ∈ new, p.jobId = id) : Only id a a' where
  jobs := h.other
  timers := fun key e _ => by rw [h.timers]
  fresh := fun key e _ hg => .inl (by rwa [h.timers] at hg)
  nextKey := Nat.le_of_eq (by rw [h.timers])
  retryTimers := fun r t _ => by rw [h.retryTimers]
  queued := fun p hp hq => (h.queued p hq).resolve_right fun hin => hp (hnew p hin)

/-! ## 2. Timers are set -/

/-- A timer of the Job takes the place of another one of it. -/
theorem replaced {old : Option Nat} {entry : TimerEntry} (hid : entry.jobId = id)
    (hown : ∀ key e, old = some key → a.timers.get key = some e → e.jobId = id)
    (ht : a'.timers = (a.timers.removeKey old).insertAt entry)
    (hjobs : ∀ j, j ≠ id → a'.jobs.get j = a.jobs.get j)
    (hr : ∀ r t, t.jobId ≠ id → (a'.retryTimers.get r = some t ↔ a.retryTimers.get r = some t))
    (hq : a'.ready = a.ready) : Only id a a' where
  jobs := hjobs
  timers := fun key e he => by
    rw [ht, get_replace]
    constructor
    · rintro (⟨-, rfl⟩ | ⟨-, hold⟩)
      · exact absurd hid he
      · exact hold
    · exact fun hold => .inr ⟨fun hkey => he (hown key e hkey hold), hold⟩
  fresh := fun key e _ hg => by
    rcases get_replace.mp (ht ▸ hg) with ⟨rfl, -⟩ | ⟨-, hold⟩
    · exact .inr (Nat.le_refl _)
    · exact .inl hold
  nextKey := by
    rw [ht, nextKey_insertAt, nextKey_removeKey]
    exact Nat.le_succ _
  retryTimers := hr
  queued := fun p _ hp => by unfold Queued at hp ⊢; rwa [hq] at hp

theorem scheduleNormal (h : OwnKeys a id) (runAt : DateTime) (kind : TimerKind) :
    Only id a (a.scheduleNormal env id runAt kind) := by
  cases hj : a.jobs.get id with
  | none =>
    unfold SchedulerActor.scheduleNormal
    rw [hj]
    exact refl id a
  | some job =>
    exact replaced rfl (fun key e hk he => ((h.normal job key hj hk).2 e he).1)
      (timers_scheduleNormal env a id runAt kind hj)
      (fun j hne => by rw [get_jobs_scheduleNormal, if_neg hne])
      (fun r t _ => by rw [retryTimers_scheduleNormal]) (ready_scheduleNormal env a id runAt kind)

/-- A retry timer of a run that has none. -/
theorem scheduleRetry {runId : RunId} (hrow : a.retryTimers.get runId = none) (version : Nat)
    (scheduledAt : DateTime) (attempt : Nat) (runAt : DateTime) :
    Only id a (a.scheduleRetry env id version runId scheduledAt attempt runAt) := by
  have hnone : ∀ key (e : TimerEntry), none = some key → a.timers.get key = some e → e.jobId = id :=
    fun key e hk => by cases hk
  refine replaced rfl hnone
    (timers_scheduleRetry env a id version scheduledAt attempt runAt hrow) (fun _ _ => rfl)
    (fun r t ht => ?_) rfl
  rw [retryTimers_scheduleRetry, get_insert_eq_some]
  constructor
  · rintro (⟨-, rfl⟩ | ⟨-, hold⟩)
    · exact absurd rfl ht
    · exact hold
  · intro hold
    refine .inr ⟨fun hr => ?_, hold⟩
    rw [hr, hrow] at hold
    cases hold

end Only

/-! ## 3. Everything a Job stores is removed -/

/-- The timer behind a key and the retry timers of a Job are removed. -/
def SchedulerActor.strip (a : SchedulerActor) (id : JobId) (key : Option Nat) : SchedulerActor :=
  ({ a with timers := a.timers.removeKey key }).clearRetryTimers id

section Strip

variable {key : Option Nat}

theorem strip_retryTimers (r : RunId) (t : RetryTimer) :
    (a.strip id key).retryTimers.get r = some t ↔ a.retryTimers.get r = some t ∧ t.jobId ≠ id := by
  show (a.retryTimers.retain fun _ timer => timer.jobId ≠ id).get r = some t ↔ _
  rw [get_retain, Option.filter_eq_some_iff, decide_eq_true_iff]

theorem no_retry_after_clear (r : RunId) (t : RetryTimer)
    (h : (a.clearRetryTimers id).retryTimers.get r = some t) : t.jobId ≠ id :=
  of_decide_eq_true (Option.filter_eq_some_iff.mp ((get_retain _ _ r).symm.trans h)).2

theorem strip_get (k : Nat) (e : TimerEntry) : (a.strip id key).timers.get k = some e ↔
      a.timers.get k = some e ∧ key ≠ some k ∧
        ∀ r t, a.retryTimers.get r = some t → t.jobId = id → t.key ≠ k := by
  have hmem : k ∈ (a.retryTimers.values.filter fun timer => timer.jobId = id).map RetryTimer.key ↔
      ∃ r t, a.retryTimers.get r = some t ∧ t.jobId = id ∧ t.key = k := by
    constructor
    · intro hk
      obtain ⟨t, ht, hkey⟩ := mem_map.mp hk
      obtain ⟨hval, hid⟩ := mem_filter.mp ht
      obtain ⟨r, hr⟩ := mem_values_iff.mp hval
      exact ⟨r, t, hr, of_decide_eq_true hid, hkey⟩
    · rintro ⟨r, t, hr, hid, hkey⟩
      refine mem_map.mpr ⟨t, mem_filter.mpr ⟨?_, decide_eq_true hid⟩, hkey⟩
      exact mem_values_iff.mpr ⟨r, hr⟩
  have hget : (a.strip id key).timers.get k =
      if k ∈ (a.retryTimers.values.filter fun timer => timer.jobId = id).map RetryTimer.key then none
      else (a.timers.removeKey key).get k :=
    get_removeAll RetryTimer.key k _ _
  rw [hget, get_removeKey]
  split
  · rename_i hk
    refine ⟨nofun, fun h => ?_⟩
    obtain ⟨r, t, hr, hid, hkey⟩ := hmem.mp hk
    exact absurd hkey (h.2.2 r t hr hid)
  · rename_i hk
    have hno : ∀ r t, a.retryTimers.get r = some t → t.jobId = id → t.key ≠ k :=
      fun r t hr hid hkey => hk (hmem.mpr ⟨r, t, hr, hid, hkey⟩)
    split
    · rename_i hkey
      exact ⟨nofun, fun h => absurd hkey h.2.1⟩
    · rename_i hkey
      exact ⟨fun h => ⟨h, hkey, hno⟩, And.left⟩

/-- **What a Job stores is what it has**: removing it removes exactly the Job's timers. -/
theorem strip_timers (hown : OwnKeys a id) (hstored : Stored a id) (hj : a.jobs.get id = some job)
    (k : Nat) (e : TimerEntry) : (a.strip id job.normalTimerKey).timers.get k = some e ↔
      a.timers.get k = some e ∧ e.jobId ≠ id := by
  rw [strip_get]
  constructor
  · rintro ⟨hget, hkey, hrows⟩
    refine ⟨hget, fun hid => ?_⟩
    obtain ⟨job', hj', -, hst⟩ := hstored k e hget hid
    rw [hj] at hj'
    cases hj'
    rcases hst.or with hst | ⟨r, t, ht, htid, htk⟩
    · exact hkey hst
    · exact hrows r t ht htid htk
  · rintro ⟨hget, hne⟩
    refine ⟨hget, fun hkey => ?_, fun r t hr hid hkey => ?_⟩
    · exact hne ((hown.normal job k hj hkey).2 e hget).1
    · subst hkey
      exact hne ((hown.retry r t hr hid).2 e hget).1

theorem nextKey_strip : (a.strip id key).timers.nextKey = a.timers.nextKey := by
  refine (nextKey_removeAll RetryTimer.key _ _).trans ?_
  exact nextKey_removeKey _ _

/-- The operation removed what the Job stores, and changed the Job and its place in the queue. -/
theorem Only.stripped (hown : OwnKeys a id)
    (hkey : ∀ k, key = some k → ∃ job, a.jobs.get id = some job ∧ job.normalTimerKey = some k)
    (hjobs : ∀ j, j ≠ id → a'.jobs.get j = a.jobs.get j) (ht : a'.timers = (a.strip id key).timers)
    (hr : a'.retryTimers = (a.strip id key).retryTimers)
    (hq : ∀ p, p.jobId ≠ id → a'.Queued p → a.Queued p) : Only id a a' where
  jobs := hjobs
  timers := fun k e hne => by
    rw [ht, strip_get]
    refine ⟨And.left, fun hget => ⟨hget, fun hk => ?_, fun r t hr hid hk => ?_⟩⟩
    · obtain ⟨job, hj, hjk⟩ := hkey k hk
      exact hne ((hown.normal job k hj hjk).2 e hget).1
    · subst hk
      exact hne ((hown.retry r t hr hid).2 e hget).1
  fresh := fun k e _ hg => .inl ((strip_get k e).mp (ht ▸ hg)).1
  nextKey := Nat.le_of_eq (by rw [ht, nextKey_strip])
  retryTimers := fun r t hne => by
    rw [hr, strip_retryTimers]
    exact ⟨And.left, fun h => ⟨h, hne⟩⟩
  queued := hq

end Strip

/-! ## 4. Jobs are changed -/

/-- A Job that stores no key and has no retry timer. -/
theorem OwnKeys.of_none (hn : ∀ job, a.jobs.get id = some job → job.normalTimerKey = none)
    (hr : ∀ r t, a.retryTimers.get r = some t → t.jobId ≠ id) : OwnKeys a id where
  normal := fun job key hj hk => by
    rw [hn job hj] at hk
    cases hk
  retry := fun r t ht hid => absurd hid (hr r t ht)

/-- The Job stores what it stored, or less. -/
theorem OwnKeys.frame (h : OwnKeys a id)
    (hjob : ∀ job' key, a'.jobs.get id = some job' → job'.normalTimerKey = some key →
      ∃ job, a.jobs.get id = some job ∧ job.normalTimerKey = some key) (ht : a'.timers = a.timers)
    (hr : ∀ r t, a'.retryTimers.get r = some t → a.retryTimers.get r = some t) : OwnKeys a' id where
  normal := fun job' key hj' hk => by
    obtain ⟨job, hj, hk⟩ := hjob job' key hj' hk
    rw [ht]
    exact h.normal job key hj hk
  retry := fun r t hrow hid => by
    rw [ht]
    exact h.retry r t (hr r t hrow) hid

namespace Only

theorem commitDisable (h : OwnKeys a id) (hj : a.jobs.get id = some job) (version : Nat)
    (reason : String) : Only id a (a.commitDisable env id job version reason) :=
  .stripped h (fun _ hk => ⟨job, hj, hk⟩)
    (fun j hne => (get_commitDisable env a id job version reason j).trans (if_neg hne)) rfl rfl
    fun _ _ hq => (queued_retain.mp hq).1

/-- What a deletion leaves of the timers and of the queue. -/
theorem commitDelete_work (env : Env) (a : SchedulerActor) (id : JobId) (job : JobEntry)
    (cancelRunning : Bool) :
    (a.commitDelete env id job cancelRunning).timers = (a.strip id job.normalTimerKey).timers ∧
      (a.commitDelete env id job cancelRunning).retryTimers =
        (a.strip id job.normalTimerKey).retryTimers ∧
      ∀ p, (a.commitDelete env id job cancelRunning).Queued p ↔ a.Queued p ∧ p.jobId ≠ id := by
  have hready : (a.commitDelete env id job cancelRunning).ready = (a.ready.removeJob id).2 := by
    cases cancelRunning <;> rfl
  refine ⟨?_, ?_, fun p => ?_⟩
  · cases cancelRunning <;> rfl
  · cases cancelRunning <;> rfl
  · unfold Queued
    rw [hready]
    exact queued_retain.trans (and_congr_right' decide_eq_true_iff)

theorem commitDelete (h : OwnKeys a id) (hj : a.jobs.get id = some job) (cancelRunning : Bool) :
    Only id a (a.commitDelete env id job cancelRunning) := by
  obtain ⟨ht, hr, hq⟩ := commitDelete_work env a id job cancelRunning
  exact .stripped h (fun _ hk => ⟨job, hj, hk⟩)
    (fun j hne => (get_commitDelete env a id job cancelRunning j).trans (if_neg hne)) ht hr
    fun p _ hp => ((hq p).mp hp).1

/-- What the update of a Job leaves in the queue was there before; the executions of other Jobs are
    as they were. -/
theorem queued_updateReady {plan : JobUpdatePlan} {p : PendingExecution}
    (h : ({ a with ready := updateReady plan id job a.ready } : SchedulerActor).Queued p) :
    ∃ q, a.Queued q ∧ q.jobId = p.jobId ∧ (p.jobId ≠ id → q = p) := by
  have hmigrated : ({ a with ready := a.ready.migrateJob id job.version job.priority } :
      SchedulerActor).Queued p → ∃ q, a.Queued q ∧ q.jobId = p.jobId ∧ (p.jobId ≠ id → q = p) := by
    intro hm
    obtain ⟨q, hq, rfl⟩ := queued_migrateJob.mp hm
    refine ⟨q, hq, ?_⟩
    unfold ReadyQueue.restamp
    split
    · rename_i hid
      exact ⟨rfl, fun hne => absurd hid hne⟩
    · exact ⟨rfl, fun _ => rfl⟩
  unfold updateReady at h
  split at h
  · exact ⟨p, (queued_retain.mp h).1, rfl, fun _ => rfl⟩
  · split at h
    · exact hmigrated (queued_retain.mp h).1
    · exact hmigrated h

theorem applyPatch (h : OwnKeys a id) (hj : a.jobs.get id = some job) (patch : JobPatch)
    (plan : JobUpdatePlan) : Only id a (a.applyPatch env id patch plan job) := by
  refine .stripped h (fun _ hk => ⟨job, hj, hk⟩)
    (fun j hne => (get_applyPatch env patch plan hj j).trans (if_neg hne)) rfl rfl fun p hne hq => ?_
  obtain ⟨q, hq, -, hsame⟩ := queued_updateReady hq
  exact hsame hne ▸ hq

theorem updateWork_key (patch : JobPatch) (plan : JobUpdatePlan) (now : DateTime) (job : JobEntry) :
    (updateWork plan (patchEntry patch plan now job)).normalTimerKey = none := by
  unfold updateWork
  split <;> rfl

/-- After the update a Job stores nothing. -/
theorem ownKeys_applyPatch (hj : a.jobs.get id = some job) (patch : JobPatch)
    (plan : JobUpdatePlan) : OwnKeys (a.applyPatch env id patch plan job) id := by
  refine .of_none (fun job' hj' => ?_) no_retry_after_clear
  rw [get_applyPatch env patch plan hj, if_pos rfl] at hj'
  cases hj'
  exact updateWork_key patch plan (a.now env) job

theorem scheduleUpdated (h : OwnKeys a id) (plan : JobUpdatePlan) (job : JobEntry) :
    Only id a (a.scheduleUpdated env id plan job) := by
  unfold SchedulerActor.scheduleUpdated
  split
  · exact scheduleNormal h _ _
  · exact refl id a

theorem cancelReplaced (plan : JobUpdatePlan) (job : JobEntry) :
    Only id a (a.cancelReplaced id plan job) := by
  unfold SchedulerActor.cancelReplaced
  split
  · exact cancelJobVersion id job.version
  · exact refl id a

theorem commitUpdate (h : OwnKeys a id) (hj : a.jobs.get id = some job) (patch : JobPatch)
    (plan : JobUpdatePlan) : Only id a (a.commitUpdate env id patch plan job) :=
  ((applyPatch h hj patch plan).trans
    ((scheduleUpdated (ownKeys_applyPatch hj patch plan) plan job).trans
      ((cancelReplaced plan job).trans (emit _))))

theorem dropWork (h : OwnKeys a id) : Only id a (a.dropWork id) := by
  have hnone : ∀ k, (none : Option Nat) = some k →
      ∃ job, a.jobs.get id = some job ∧ job.normalTimerKey = some k := fun _ hk => by cases hk
  exact .stripped h hnone (fun _ _ => rfl) rfl rfl fun _ _ hq => (queued_retain.mp hq).1

theorem commitEnable (h : OwnKeys a id) (version : Nat) (now next : DateTime) :
    Only id a (a.commitEnable env id version now next) := by
  have henabled : OwnKeys (a.modifyJob id (enableEntry version now)) id := by
    refine h.frame (fun job' key hj' hk => ?_) rfl fun _ _ hr => hr
    have hget := get_modify a.jobs id id (enableEntry version now)
    rw [if_pos rfl] at hget
    obtain ⟨job, hj, rfl⟩ := Option.map_eq_some_iff.mp (hget.symm.trans hj')
    exact ⟨job, hj, hk⟩
  exact (modifyJob _).trans ((scheduleNormal henabled next .normal).trans (emit _))

theorem installJob (h : OwnKeys a id) (entry : JobEntry) (hkey : entry.normalTimerKey = none)
    (enabled : Bool) (firstRun : DateTime) :
    Only id a (a.installJob env id entry enabled firstRun) := by
  have hinsert : Only id a { a with jobs := a.jobs.insert id entry } :=
    .of_jobs (fun j hne => (get_insert a.jobs id j entry).trans (if_neg hne)) rfl rfl rfl
  have hown : OwnKeys { a with jobs := a.jobs.insert id entry } id := by
    refine ⟨fun job key hj hk => ?_, h.retry⟩
    have hget := get_insert a.jobs id id entry
    rw [if_pos rfl] at hget
    cases hget.symm.trans hj
    rw [hkey] at hk
    cases hk
  refine Only.trans ?_ (emit _)
  cases enabled with
  | true => exact hinsert.trans (scheduleNormal hown firstRun .normal)
  | false => exact hinsert

end Only

end Smalux.Scheduler
