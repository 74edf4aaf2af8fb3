/-
  Subject:   Which runs keep the actor tidy: a Job that is not Enabled owns nothing.

  Disabling a Job clears all it owns; the results that complete a one-shot Job clear nothing. The
  actor stays tidy as long as such a result arrives when the Job owns nothing else, and no attempt
  of a Job that is no longer Enabled is retried.

  * `Handed` -- the batch of expired timers that is being handled; `Tidy.handleTimers`;
  * `Tidy.settle` -- held-back executions return and executions start;
  * `SlateGuard` -- the two conditions on a result;
  * **`idle_jobs_own_nothing`** -- in every run that meets them, a Job that is not Enabled owns
    nothing, and enabling it leaves it with its next timer alone.
-/
import Smalux.Scheduler.Expiry
import Smalux.Scheduler.Tidy
import Smalux.Scheduler.RunIds
import Smalux.Scheduler.TimerKeys

namespace Smalux.Scheduler

open Lib SchedulerActor Table Option DelayQueue

variable {env : Env} {a a' : SchedulerActor} {id : JobId} {x : Nat × TimerEntry}
  {rest : List (Nat × TimerEntry)} {c : TaskCompletion} {f : JobEntry → JobEntry}
  {elapsed : Duration} {outcome : CompletionOutcome}

/-! ## 1. Expired timers -/

/-- What handling one Job's timer does. -/
structure Moved (id : JobId) (a a' : SchedulerActor) : Prop where
  only : Only id a a'
  tidy : TidyAt a' id
  rows : ∀ r t, a'.retryTimers.get r = some t → a.retryTimers.get r = some t

namespace Moved

variable {a'' : SchedulerActor}

theorem trans (h : Moved id a a') (h' : Moved id a' a'') : Moved id a a'' where
  only := h.only.trans h'.only
  tidy := h'.tidy
  rows := fun r t hr => h.rows r t (h'.rows r t hr)

theorem refl (h : TidyAt a id) : Moved id a a := ⟨.refl id a, h, fun _ _ hr => hr⟩

/-- Clock and events do not matter. -/
theorem same (h : TidyAt a id) (hs : WorkAlike a a') : Moved id a a' where
  only := .of_jobs (fun _ _ => by rw [hs.jobs]) hs.timers hs.retryTimers hs.ready
  tidy := h.frame (by rw [hs.jobs]) hs.timers hs.retryTimers fun p hp => by
    unfold Queued at hp ⊢
    rwa [hs.ready] at hp
  rows := fun _ _ hr => hs.retryTimers ▸ hr

theorem scheduleNormal (h : TidyAt a id) (he : a.EnabledJob id) (runAt : DateTime)
    {kind : TimerKind} (hkind : kind = .normal ∨ kind = .runNow) :
    Moved id a (a.scheduleNormal env id runAt kind) where
  only := .scheduleNormal h.own runAt kind
  tidy := h.scheduleNormal he runAt hkind
  rows := fun _ _ hr => by rwa [retryTimers_scheduleNormal] at hr

theorem admitted {job : JobEntry} {blocked new : List PendingExecution} (h : TidyAt a id)
    (hj : a.jobs.get id = some job) (hs : job.state = .enabled)
    (hadm : Admitted a id job blocked new a')
    (hnew : ∀ p ∈ new, p.jobId = id ∧ p.version = job.version) : Moved id a a' where
  only := .shifted hadm.shifted fun p hp => (hnew p hp).1
  tidy := h.shifted hj hadm.shifted (fun _ _ => hs) hnew
  rows := fun _ _ hr => hadm.retryTimers ▸ hr

theorem forceDisable (h : TidyAt a id) (reason : String) :
    Moved id a (a.forceDisable env id reason).2 := by
  rcases forceDisable_cases env a id reason with ⟨he, -⟩ | ⟨job, hj, -, he⟩
  · rw [he]
    exact refl h
  · rw [he]
    refine ⟨.commitDisable h.own hj _ reason, .of_nothing (.commitDisable h hj _ reason),
      fun r t hr => ?_⟩
    have hr : (a.strip id job.normalTimerKey).retryTimers.get r = some t := hr
    exact ((strip_retryTimers r t).mp hr).1

end Moved

/-- The timers of a batch that are still to be handled: out of the queue, and what is stored of
    them still points at them. -/
structure Handed (a : SchedulerActor) (batch : List (Nat × TimerEntry)) : Prop where
  out : ∀ x ∈ batch, x.1 < a.timers.nextKey ∧ a.timers.get x.1 = none
  once : (batch.map Prod.fst).Nodup
  single : ∀ x ∈ batch, ∀ y ∈ batch, ∀ id, x.2.IsNormalOf id → y.2.IsNormalOf id → x.1 = y.1
  normal : ∀ x ∈ batch, ∀ id, x.2.IsNormalOf id → ∀ job, a.jobs.get id = some job →
    job.normalTimerKey = none ∨ job.normalTimerKey = some x.1
  retry : ∀ x ∈ batch, ∀ id r, x.2.IsRetryOf id r → ∀ t, a.retryTimers.get r = some t →
    t.jobId = id ∧ t.key = x.1

namespace Handed

/-- The first timer of the batch has been handled. -/
theorem next (h : Handed a (x :: rest)) (hm : Moved x.2.jobId a a')
    (hkeys : ∀ y ∈ rest, y.2.IsNormalOf x.2.jobId → ∀ job', a'.jobs.get x.2.jobId = some job' →
      job'.normalTimerKey = none ∨ job'.normalTimerKey = some y.1) : Handed a' rest where
  out := fun y hy => by
    obtain ⟨hlt, hnone⟩ := h.out y (List.mem_cons_of_mem _ hy)
    refine ⟨Nat.lt_of_lt_of_le hlt hm.only.nextKey, ?_⟩
    cases hg : a'.timers.get y.1 with
    | none => rfl
    | some e =>
      have hold : a.timers.get y.1 = some e := by
        by_cases hid : e.jobId = x.2.jobId
        · exact (hm.only.fresh y.1 e hid hg).resolve_right (Nat.not_le.mpr hlt)
        · exact (hm.only.timers y.1 e hid).mp hg
      rw [hnone] at hold
      cases hold
  once := (List.nodup_cons.mp h.once).2
  single := fun y hy z hz => h.single y (List.mem_cons_of_mem _ hy) z (List.mem_cons_of_mem _ hz)
  normal := fun y hy id hn job hj => by
    by_cases hid : id = x.2.jobId
    · subst hid
      exact hkeys y hy hn job hj
    · exact h.normal y (List.mem_cons_of_mem _ hy) id hn job (hm.only.jobs id hid ▸ hj)
  retry := fun y hy id r hr t ht => h.retry y (List.mem_cons_of_mem _ hy) id r hr t (hm.rows r t ht)

/-- There is no second normal timer of the Job in the batch. -/
theorem no_second (h : Handed a (x :: rest)) {y : Nat × TimerEntry} (hy : y ∈ rest)
    (hx : x.2.IsNormalOf id) : ¬ y.2.IsNormalOf id := by
  intro hn
  have hkey := h.single x List.mem_cons_self y (List.mem_cons_of_mem _ hy) id hx hn
  have hfresh := (List.nodup_cons.mp h.once).1
  exact hfresh (List.mem_map.mpr ⟨y, hy, hkey.symm⟩)

end Handed

namespace Tidy

theorem moved (h : Tidy a) (hm : Moved id a a') : Tidy a' := h.only hm.only hm.tidy

/-- The retry timer that has left the queue is forgotten. -/
theorem forgetRetry (h : Tidy a) (hb : Handed a (x :: rest)) {runId : RunId}
    {scheduledAt : DateTime} {attempt : Nat} (hk : x.2.kind = .retry runId scheduledAt attempt) :
    Moved x.2.jobId a { a with retryTimers := a.retryTimers.remove runId } := by
  have hrow := hb.retry x List.mem_cons_self x.2.jobId runId ⟨rfl, scheduledAt, attempt, hk⟩
  refine ⟨?_, (h x.2.jobId).removeRetry fun t ht => ?_, fun r t hr => ?_⟩
  · refine { Only.refl x.2.jobId a with retryTimers := fun r t hne => ?_ }
    exact get_remove_eq_some.trans (and_iff_right_of_imp fun hold hr =>
      hne (hrow t (hr ▸ hold)).1)
  · rw [(hrow t ht).2]
    exact (hb.out x List.mem_cons_self).2
  · exact (get_remove_eq_some.mp hr).2

/-- The Job's timer has left the queue, and its key is forgotten. -/
theorem forgetNormal (h : Tidy a) (hb : Handed a (x :: rest)) {job : JobEntry}
    (hj : a.jobs.get x.2.jobId = some job) (hn : x.2.IsNormalOf x.2.jobId) :
    Moved x.2.jobId a (a.modifyJob x.2.jobId clearNormalTimer) := by
  refine ⟨.modifyJob _, (h x.2.jobId).clearNormalTimer hj fun k hkey => ?_, fun _ _ hr => hr⟩
  rcases hb.normal x List.mem_cons_self _ hn job hj with hnone | hsome
  · rw [hnone] at hkey
    cases hkey
  · rw [hsome] at hkey
    cases hkey
    exact (hb.out x List.mem_cons_self).2

/-- **One expired timer.** -/
theorem handleTimer (h : Tidy a) (hb : Handed a (x :: rest)) (batchId : Nat) :
    Tidy (a.handleTimer env x.2 batchId) ∧ Handed (a.handleTimer env x.2 batchId) rest := by
  have hsame : ∀ job, a.jobs.get x.2.jobId = some job → ∀ y ∈ rest,
      y.2.IsNormalOf x.2.jobId → job.normalTimerKey = none ∨ job.normalTimerKey = some y.1 :=
    fun job hj y hy hn => hb.normal y (List.mem_cons_of_mem _ hy) _ hn job hj
  have hexpiry := expiry env a x.2 batchId
  generalize a.handleTimer env x.2 batchId = a' at hexpiry ⊢
  cases hexpiry with
  | ignored _ => exact ⟨h, hb.next (.refl (h _)) fun y hy hn job hj => hsame job hj y hy hn⟩
  | retried job runId scheduledAt attempt blocked _ hj hv hs hk hadm =>
    have hforget := h.forgetRetry hb hk
    have hm : Moved x.2.jobId a a' :=
      hforget.trans (.admitted hforget.tidy hj hs hadm fun p hp => by
        rw [List.mem_singleton.mp hp]
        exact ⟨rfl, hv.symm⟩)
    refine ⟨h.moved hm, hb.next hm fun y hy hn job' hj' => ?_⟩
    cases hadm.self.symm.trans hj'
    exact hsame job hj y hy hn
  | failed job error hj hv hs hk _ =>
    have hforget := h.forgetNormal hb hj ⟨rfl, hk⟩
    have htick := hforget.trans (.same hforget.tidy (.tick _))
    have hm : Moved x.2.jobId a ((a.modifyJob x.2.jobId clearNormalTimer).tick.forceDisable env
        x.2.jobId error.text).2 := htick.trans (.forceDisable htick.tidy error.text)
    exact ⟨h.moved hm, hb.next hm fun y hy hn => absurd hn (hb.no_second hy ⟨rfl, hk⟩)⟩
  | fired job due b blocked drawn b' _ hj hv hs hk _ halike hadm _ hdrawn hnext =>
    have hforget := h.forgetNormal hb hj ⟨rfl, hk⟩
    have hstart := hforget.trans (.same hforget.tidy halike)
    have hin := hstart.trans (.admitted hstart.tidy (get_cleared halike hj) hs hadm fun p hp =>
      ⟨(hdrawn p hp).jobId, (hdrawn p hp).version⟩)
    have hm : Moved x.2.jobId a a' := by
      rcases hnext with ⟨rfl, -⟩ | ⟨next, rfl⟩
      · exact hin
      · exact hin.trans (.scheduleNormal hin.tidy ⟨_, hadm.self, hs⟩ next (.inl rfl))
    exact ⟨h.moved hm, hb.next hm fun y hy hn => absurd hn (hb.no_second hy ⟨rfl, hk⟩)⟩

theorem handleTimers (batchId : Nat) : ∀ (batch : List (Nat × TimerEntry)) {a : SchedulerActor},
    Tidy a → Handed a batch → Tidy (a.handleTimers env batchId batch)
  | [], _, h, _ => h
  | x :: rest, a, h, hb => by
    obtain ⟨h', hb'⟩ : Tidy (a.handleTimer env x.2 batchId) ∧
        Handed (a.handleTimer env x.2 batchId) rest := h.handleTimer hb batchId
    exact handleTimers batchId rest h' hb'

end Tidy

section Batch

/-- The queue without the timers that expired. -/
theorem popExpired_get : ∀ (keys : List Nat) (timers : DelayQueue TimerEntry) (k : Nat),
    (popExpired timers keys).2.get k =
      if k ∈ (popExpired timers keys).1.map Prod.fst then none else timers.get k
  | [], _, _ => rfl
  | key :: keys, timers, k => by
    unfold popExpired
    split
    · exact popExpired_get keys timers k
    · rw [popExpired_get keys (timers.tryRemove key) k, List.map_cons, get_tryRemove]
      by_cases hk : k = key
      · simp [hk]
      · simp only [List.mem_cons, hk, false_or, if_false]

theorem popExpired_nextKey : ∀ (keys : List Nat) (timers : DelayQueue TimerEntry),
    (popExpired timers keys).2.nextKey = timers.nextKey
  | [], _ => rfl
  | key :: keys, timers => by
    unfold popExpired
    split
    · exact popExpired_nextKey keys timers
    · exact popExpired_nextKey keys (timers.tryRemove key)

theorem popExpired_nodup : ∀ (keys : List Nat) (timers : DelayQueue TimerEntry),
    ((popExpired timers keys).1.map Prod.fst).Nodup
  | [], _ => List.nodup_nil
  | key :: keys, timers => by
    unfold popExpired
    split
    · exact popExpired_nodup keys timers
    · refine List.nodup_cons.mpr ⟨fun hin => ?_, popExpired_nodup keys (timers.tryRemove key)⟩
      obtain ⟨x, hx, hkey⟩ := List.mem_map.mp hin
      have hget := mem_popExpired hx
      rw [hkey, get_tryRemove, if_pos rfl] at hget
      cases hget

/-- The batch that leaves the queue of a tidy actor. -/
theorem Handed.popExpired (h : Tidy a) (keys : List Nat) (sequence : Nat) : Handed
      { a with batchSequence := sequence, timers := (SchedulerActor.popExpired a.timers keys).2 }
      (SchedulerActor.popExpired a.timers keys).1 := by
  have hkey : ∀ x ∈ (SchedulerActor.popExpired a.timers keys).1, ∀ id, x.2.IsNormalOf id →
      ∃ job, a.jobs.get id = some job ∧ job.normalTimerKey = some x.1 := by
    intro x hx id hn
    obtain ⟨job, hj, -, hst⟩ := (h id).stored x.1 x.2 (mem_popExpired hx) hn.1
    exact ⟨job, hj, by rcases hn.2 with hk | hk <;> (rw [hk] at hst; exact hst)⟩
  refine ⟨fun x hx => ⟨?_, ?_⟩, popExpired_nodup keys a.timers, fun x hx y hy id hnx hny => ?_,
    fun x hx id hn job hj => ?_, fun x hx id r hr t ht => ?_⟩
  · rw [popExpired_nextKey]
    exact lt_nextKey (mem_popExpired hx)
  · exact (popExpired_get keys a.timers x.1).trans (if_pos (List.mem_map_of_mem hx))
  · obtain ⟨job, hj, hkx⟩ := hkey x hx id hnx
    obtain ⟨job', hj', hky⟩ := hkey y hy id hny
    rw [hj] at hj'
    cases hj'
    rw [hkx] at hky
    exact Option.some.inj hky
  · obtain ⟨job', hj', hkx⟩ := hkey x hx id hn
    cases hj'.symm.trans hj
    exact .inr hkx
  · obtain ⟨hid, scheduledAt, attempt, hk⟩ := hr
    obtain ⟨job, -, -, hst⟩ := (h id).stored x.1 x.2 (mem_popExpired hx) hid
    rw [hk] at hst
    obtain ⟨t', ht', htid, htk⟩ := hst
    cases ht'.symm.trans ht
    exact ⟨htid, htk⟩

/-- Timers that leave the queue take nothing with them. -/
theorem TidyAt.popTimers (h : TidyAt a id) {timers : DelayQueue TimerEntry}
    (ht : ∀ k e, timers.get k = some e → a.timers.get k = some e)
    (hn : timers.nextKey = a.timers.nextKey) (sequence : Nat) :
    TidyAt { a with batchSequence := sequence, timers := timers } id where
  __ := h
  own := by
    refine ⟨fun job key hj hk => ?_, fun r t hr hid => ?_⟩
    · obtain ⟨hlt, hown⟩ := h.own.normal job key hj hk
      exact ⟨Nat.lt_of_lt_of_eq hlt hn.symm, fun e he => hown e (ht key e he)⟩
    · obtain ⟨hlt, hown⟩ := h.own.retry r t hr hid
      exact ⟨Nat.lt_of_lt_of_eq hlt hn.symm, fun e he => hown e (ht t.key e he)⟩
  stored := fun k e he hid => h.stored k e (ht k e he) hid

theorem Tidy.handleExpiredBatch (h : Tidy a) (keys : List Nat) :
    Tidy (a.handleExpiredBatch env keys) := by
  unfold SchedulerActor.handleExpiredBatch
  dsimp only
  split
  · exact h
  · refine Tidy.handleTimers _ _ (fun id => (h id).popTimers (fun k e he => ?_)
      (popExpired_nextKey _ _) _) (.popExpired h _ _)
    rw [popExpired_get] at he
    split at he
    · cases he
    · exact he

end Batch

/-! ## 2. What comes before the wait -/

namespace Tidy

theorem scheduleNormal (h : Tidy a) (he : a.EnabledJob id) (runAt : DateTime) :
    Tidy (a.scheduleNormal env id runAt .normal) :=
  h.moved (.scheduleNormal (h id) he runAt (.inl rfl))

theorem resumeJob (h : Tidy a) (jobId : JobId) (resumeFrom : Option DateTime) :
    Tidy (a.resumeJob env jobId resumeFrom) := by
  unfold SchedulerActor.resumeJob
  split
  · exact h
  · rename_i job hj
    split
    · rename_i hc
      split
      · exact h
      · split
        · exact h.scheduleNormal ⟨job, hj, hc.2.2.1⟩ _
        · exact h
    · exact h

theorem restoreJob (h : Tidy a) (jobId : JobId) : Tidy (a.restoreJob env jobId) := by
  unfold SchedulerActor.restoreJob
  split
  · exact h
  · rename_i job hj
    obtain ⟨blocked, hre⟩ := Requeued.restored env hj
    have hrestored := h.only (.shifted hre.shifted fun p hp => ((h jobId).blocked job hj p hp).1)
      ((h jobId).requeued hj hre)
    exact hrestored.resumeJob jobId _

theorem restoreJobs : ∀ (jobIds : List JobId) {a : SchedulerActor}, Tidy a →
    Tidy (a.restoreJobs env jobIds)
  | [], _, h => h
  | jobId :: rest, _, h => restoreJobs rest (h.restoreJob jobId)

theorem restoreBlocked (h : Tidy a) : Tidy (a.restoreBlocked env) := by
  unfold SchedulerActor.restoreBlocked
  split
  · exact h
  · exact restoreJobs a.jobs.keys h

theorem modifyJob (h : Tidy a) (hf : ∀ job, (f job).work = job.work) : Tidy (a.modifyJob id f) := by
  refine h.only (.modifyJob f) ((h id).frame ?_ rfl rfl fun _ hq => hq)
  have hget : (a.modifyJob id f).jobs.get id = (a.jobs.get id).map f :=
    (get_modify a.jobs id id f).trans (if_pos rfl)
  rw [hget, Option.map_map]
  congr 1
  funext job
  exact hf job

theorem spawnExecution (h : Tidy a) (p : PendingExecution) : Tidy (a.spawnExecution env p) := by
  unfold SchedulerActor.spawnExecution
  split
  · exact h
  · split
    · exact h
    · have hstart : Tidy (a.modifyJob p.jobId (startEntry (a.now env) p.scheduledAt)) :=
        h.modifyJob fun _ => rfl
      exact hstart.frame rfl rfl rfl fun _ hq => hq

theorem dispatchLoop : ∀ (fuel : Nat) {a : SchedulerActor}, Tidy a →
    Tidy (SchedulerActor.dispatchLoop env fuel a)
  | 0, _, h => h
  | fuel + 1, a, h => by
    unfold SchedulerActor.dispatchLoop
    split
    · split
      · rename_i ready hpop
        have hpending := (ReadyQueue.popDispatchable_none (congrArg Prod.fst hpop)).2.1
        rw [hpop] at hpending
        refine h.frame rfl rfl rfl fun p hp => ?_
        unfold Queued at hp ⊢
        rwa [show ({ a with ready := ready } : SchedulerActor).ready.pending = _ from hpending] at hp
      · rename_i pending ready hpop
        obtain ⟨-, -, -, hpending, -⟩ := ReadyQueue.popDispatchable_some (congrArg Prod.fst hpop)
        rw [hpop] at hpending
        have htaken : Tidy { a with ready := ready } := by
          refine h.frame rfl rfl rfl fun p hp => ?_
          unfold Queued at hp ⊢
          rw [show ({ a with ready := ready } : SchedulerActor).ready.pending = _ from hpending] at hp
          exact (get_remove_eq_some.mp hp).2
        exact dispatchLoop fuel (htaken.spawnExecution pending)
    · exact h

theorem settle (h : Tidy a) : Tidy (a.settle env) := dispatchLoop _ h.restoreBlocked

end Tidy

/-! ## 3. Results -/

section Congr

variable {b : SchedulerActor} {job job' : JobEntry}

theorem retryDelay_congr (hj : a.jobs.get id = some job) (hj' : b.jobs.get id = some job')
    (hr : job'.retry = job.retry) (attempt : Nat) (class_ : FailureClass) :
    b.retryDelay id attempt class_ = a.retryDelay id attempt class_ := by
  unfold retryDelay
  rw [hj, hj']
  dsimp only
  rw [hr]

/-- The policies read the retry and failure policy, the failures so far and the schedule. -/
theorem completesJob_congr (hj : a.jobs.get c.jobId = some job)
    (hj' : b.jobs.get c.jobId = some job') (hr : job'.retry = job.retry)
    (hf : job'.failure = job.failure) (hc : job'.consecutiveFailures = job.consecutiveFailures)
    (ht : job'.trigger = job.trigger) : b.completesJob job' c = a.completesJob job c := by
  have hthreshold : ∀ error count,
      thresholdReached (failEntry error count job') = thresholdReached (failEntry error count job) := by
    intro error count
    unfold thresholdReached failEntry
    rw [hf, hc]
  have hcounts : ∀ class_, b.failureCounts c.jobId class_ = a.failureCounts c.jobId class_ := by
    intro class_
    unfold failureCounts
    rw [hj, hj']
    simp only [map_some, hf]
  unfold completesJob failsFinally
  simp only [retryDelay_congr hj hj' hr, hthreshold, hcounts, ht]

end Congr

/-- The Job is Enabled at the version of the attempt, whose run has no retry timer yet. -/
structure MayRetry (a : SchedulerActor) (c : TaskCompletion) : Prop where
  row : a.retryTimers.get c.runId = none
  job : ∃ job, a.jobs.get c.jobId = some job ∧ job.version = c.version ∧ job.state = .enabled

namespace Tidy

/-- A Job that owns nothing may be Completed. -/
theorem complete (h : Tidy a) (hn : OwnsNothing a id)
    (hf : ∀ job, (f job).normalTimerKey = job.normalTimerKey ∧ (f job).blocked = job.blocked) :
    Tidy (a.modifyJob id f) :=
  h.only (.modifyJob f) (.of_nothing (hn.modifyJob hf))

theorem scheduleRetry (h : Tidy a) (hm : MayRetry a c) (attempt : Nat) (runAt : DateTime) :
    Tidy (a.scheduleRetry env c.jobId c.version c.runId c.scheduledAt attempt runAt) := by
  obtain ⟨job, hj, hv, hs⟩ := hm.job
  rw [← hv]
  exact h.only (.scheduleRetry hm.row job.version c.scheduledAt attempt runAt)
    ((h c.jobId).scheduleRetry hj hs hm.row c.scheduledAt attempt runAt)

end Tidy

/-- While a result is handled: a retry may still be set, and a Job that is to be Completed owns
    nothing. -/
structure Settling (start : SchedulerActor) (c : TaskCompletion) (a : SchedulerActor) : Prop where
  tidy : Tidy a
  retry : start.retriesAttempt c = true → MayRetry a c
  ends : start.CompletesJob c → OwnsNothing a c.jobId

namespace Settling

variable {start : SchedulerActor}

theorem same (h : Settling start c a) (hs : WorkAlike a a') : Settling start c a' where
  tidy := h.tidy.same hs
  retry := fun hr => ⟨hs.retryTimers ▸ (h.retry hr).row, hs.jobs ▸ (h.retry hr).job⟩
  ends := fun he => (h.ends he).same hs

/-- **A result of the current version** leaves the actor tidy, if it completes only Jobs that own
    nothing and retries only attempts of Enabled Jobs. -/
theorem rule (env : Env) (start : SchedulerActor) (task : SpawnedTask) (elapsed : Duration)
    (outcome : CompletionOutcome) :
    ResultRule env start task elapsed outcome (Settling start (task.completion elapsed outcome))
      Tidy where
  emit := fun kind _ h => h.same (.emit env _ kind)
  tick := fun h => h.same (.tick _)
  panic := fun h => h.same (.panic _)
  cancel := fun h =>
    ⟨h.tidy.frame rfl rfl rfl fun _ hq => hq, fun hr => ⟨(h.retry hr).row, (h.retry hr).job⟩,
      fun he => (h.ends he).frame (fun job hj => ⟨job, hj, rfl, rfl⟩) (fun _ _ ht => ht)
        (fun _ _ hr => hr) fun _ hq => hq⟩
  succeed := fun hr hc h => by
    have hdone : Tidy (start.modifyJob task.jobId successEntry) := by
      by_cases hn : OwnsNothing start task.jobId
      · exact h.tidy.complete hn fun _ => ⟨rfl, rfl⟩
      · -- the Job is not a one-shot one, or it is not there
        refine h.tidy.only (.modifyJob _) ((h.tidy task.jobId).frame ?_ rfl rfl fun _ hq => hq)
        have hget : (start.modifyJob task.jobId successEntry).jobs.get task.jobId =
            (start.jobs.get task.jobId).map successEntry :=
          (get_modify start.jobs task.jobId task.jobId _).trans (if_pos rfl)
        rw [hget, Option.map_map]
        cases hj : start.jobs.get task.jobId with
        | none => rfl
        | some job =>
          have honce : job.trigger.schedule.isOnce = false :=
            Bool.eq_false_iff.mpr fun ho => hn (h.ends (hc job hj ho))
          simp [successEntry, JobEntry.work, honce]
    refine ⟨hdone, fun hretry => ?_, fun he => (h.ends he).modifyJob fun _ => ⟨rfl, rfl⟩⟩
    rw [hr] at hretry
    cases hretry
  fail := fun error count h =>
    ⟨h.tidy.modifyJob fun _ => rfl, fun hr => by
      obtain ⟨job, hj, hv, hs⟩ := (h.retry hr).job
      exact ⟨(h.retry hr).row, _, get_modify_of_get hj _, hv, hs⟩,
      fun he => (h.ends he).modifyJob fun _ => ⟨rfl, rfl⟩⟩
  complete := fun now hc _ _ h => h.tidy.complete (h.ends hc) fun _ => ⟨rfl, rfl⟩
  disable := fun reason _ hj h => h.tidy.commitDisable hj _ reason
  delete := fun _ hj h => h.tidy.commitDelete hj true
  retry := fun runAt hr _ h => h.tidy.scheduleRetry (h.retry hr) _ runAt
  done := fun h => h.tidy

end Settling

/-! ## 4. Runs -/

/-- The next timer is all the Job has. -/
structure FreshSlate (a : SchedulerActor) (id : JobId) : Prop where
  timers : ∀ key e, a.timers.get key = some e → e.jobId = id →
    ∃ job, a.jobs.get id = some job ∧ job.normalTimerKey = some key
  retryTimers : ∀ r t, a.retryTimers.get r = some t → t.jobId ≠ id
  queued : ∀ p, a.Queued p → p.jobId ≠ id
  blocked : ∀ job, a.jobs.get id = some job → job.blocked = []

/-- A Job that is not Enabled owns nothing, and `enable_job` leaves it its next timer alone. -/
def IdleJobsOwnNothing (env : Env) (a : SchedulerActor) : Prop :=
  ∀ id job, a.jobs.get id = some job → job.state ≠ .enabled →
    OwnsNothing a id ∧ ∀ expectedVersion, FreshSlate (a.enableJob env id expectedVersion).2 id

instance (a : SchedulerActor) (id : JobId) : Decidable (OwnsNothing a id) :=
  decidable_of_iff
    ((∀ e ∈ a.timers.entries.values, e.jobId ≠ id) ∧ (∀ t ∈ a.retryTimers.values, t.jobId ≠ id) ∧
      (∀ p ∈ a.ready.pending.values, p.jobId ≠ id) ∧
      ∀ job ∈ a.jobs.get id, job.normalTimerKey = none ∧ job.blocked = [])
    ⟨fun ⟨ht, hr, hq, hj⟩ =>
      ⟨fun k e he => ht e (mem_values_iff.mpr ⟨k, he⟩),
        fun r t hrow => hr t (mem_values_iff.mpr ⟨r, hrow⟩),
        fun p hp => hq p (mem_values_iff.mpr ⟨p.runId, hp⟩), hj⟩,
      fun h =>
        ⟨fun e he => (mem_values_iff.mp he).elim fun k hk => h.timers k e hk,
          fun t ht => (mem_values_iff.mp ht).elim fun r hr => h.retryTimers r t hr,
          fun p hp => (mem_values_iff.mp hp).elim fun _ hr => h.queued p (queued_of_get hr),
          h.job⟩⟩

namespace OwnsNothing

theorem freshSlate (h : OwnsNothing a id) : FreshSlate a id where
  timers := fun key e he hid => absurd hid (h.timers key e he)
  retryTimers := h.retryTimers
  queued := h.queued
  blocked := fun job hj => (h.job job hj).2

theorem freshSlate_scheduleNormal (h : OwnsNothing a id) (he : a.EnabledJob id) (runAt : DateTime) :
    FreshSlate (a.scheduleNormal env id runAt .normal) id := by
  have htidy : TidyAt (a.scheduleNormal env id runAt .normal) id :=
    h.scheduleNormal he runAt (.inl rfl)
  have hrows : ∀ r t, (a.scheduleNormal env id runAt .normal).retryTimers.get r = some t →
      t.jobId ≠ id := fun r t hr => h.retryTimers r t (by rwa [retryTimers_scheduleNormal] at hr)
  refine ⟨fun key e hget hid => ?_, hrows, fun p hp => h.queued p ?_, fun job hj => ?_⟩
  · obtain ⟨job, hj, -, hst⟩ := htidy.stored key e hget hid
    refine ⟨job, hj, hst.or.resolve_right ?_⟩
    rintro ⟨r, t, ht, htid, -⟩
    exact hrows r t ht htid
  · unfold Queued at hp ⊢
    rwa [ready_scheduleNormal] at hp
  · rw [get_jobs_scheduleNormal, if_pos rfl] at hj
    obtain ⟨job', hj', rfl⟩ := map_eq_some_iff.mp hj
    exact (h.job job' hj').2

/-- **An empty slate**: a Job that owns nothing has its next timer alone once it is enabled. -/
theorem enableJob (h : OwnsNothing a id) (expectedVersion : Nat)
    (hoff : ∀ job, a.jobs.get id = some job → job.state ≠ .enabled) :
    FreshSlate (a.enableJob env id expectedVersion).2 id := by
  have hdropped : OwnsNothing (a.dropWork id).tick id := h.dropWork.same (.tick _)
  have hresult := enableJob_result env a id expectedVersion
  generalize a.enableJob env id expectedVersion = result at hresult ⊢
  cases hresult with
  | refused => exact h.freshSlate
  | already job hj _ hs => exact absurd hs (hoff job hj)
  | dropped => exact hdropped.freshSlate
  | enabled job entry next hj =>
    have hnothing : OwnsNothing ((a.dropWork id).tick.modifyJob id
        (enableEntry (expectedVersion + 1) (a.now env))) id := hdropped.modifyJob fun _ => ⟨rfl, rfl⟩
    have hslate : FreshSlate (SchedulerActor.scheduleNormal env _ id next .normal) id :=
      hnothing.freshSlate_scheduleNormal ⟨_, get_modify_of_get hj _, rfl⟩ next
    exact { hslate with }

end OwnsNothing

/-- A result that completes a one-shot Job arrives when the Job owns nothing, and a failed attempt
    is retried only while its Job is Enabled. Results of old versions do not matter. -/
def SlateGuard (a : SchedulerActor) : Message → Prop
  | .completion task elapsed outcome =>
    task ∈ a.tasks → task.possible (a.tokenCancelled task.runId) outcome = true →
      ∀ job ∈ a.jobs.get task.jobId, job.version = task.version →
        (a.completesJob job (task.completion elapsed outcome) = true →
          OwnsNothing a task.jobId) ∧
        (a.retriesAttempt (task.completion elapsed outcome) = true → job.state = .enabled)
  | _ => True

instance (a : SchedulerActor) : ∀ message, Decidable (SlateGuard a message)
  | .completion _ _ _ => inferInstanceAs (Decidable (_ → _ → ∀ job ∈ a.jobs.get _, _))
  | .command _ | .joinError _ | .expired _ | .maintenance | .rehash _ => .isTrue trivial

/-- A run that is being executed has no retry timer. -/
theorem no_retryTimer_of_task (hr : RunsOnce env (.idle a)) (hk : KeysOwned (.idle a))
    {task : SpawnedTask} (ht : task ∈ a.tasks) : a.retryTimers.get task.runId = none := by
  cases hrow : a.retryTimers.get task.runId with
  | none => rfl
  | some t =>
    obtain ⟨entry, hf, ⟨-, scheduledAt, attempt, hkind⟩, -⟩ :=
      hk.owned t.jobId t.key (some task.runId) ⟨t, hrow, rfl, rfl⟩
    have hget : a.timers.get t.key = some entry := hf.resolve_right List.not_mem_nil
    obtain ⟨e, he, -⟩ := map_eq_some_iff.mp (hr.tasks task ht)
    have hrun : a.running.get task.runId = some e := he
    -- the run would be in two places: running, and behind its retry timer
    have hone := hr.once task.runId
    have htimed := sumBy_tryRemove hget fun e => if e.retries task.runId then 1 else 0
    have hretries : entry.retries task.runId = true := by
      unfold TimerEntry.retries
      rw [hkind]
      exact decide_eq_true rfl
    rw [if_pos hretries] at htimed
    have hholds : a.runningRuns task.runId = 1 := by
      unfold runningRuns Table.holds
      rw [hrun]
      rfl
    unfold Machine.places timedRuns at hone
    dsimp only [Machine.idle] at hone
    omega

/-- What holds of the slate between two turns. -/
structure SlateInv (env : Env) (a : SchedulerActor) : Prop where
  tidy : Tidy a
  runs : RunsOnce env (.idle a)
  keys : KeysOwned (.idle a)

namespace SlateInv

/-- In a tidy actor every timer belongs to an Enabled Job. -/
theorem timerGuard (h : Tidy a) (message : Message) : TimerGuard a message := by
  cases message with
  | expired =>
    intro key _ _ entry he job hj _
    by_contra hs
    exact ((h entry.jobId).ownsNothing (not_enabledJob hj hs)).timers key entry he rfl
  | command | completion | joinError | maintenance | rehash => trivial

theorem released (h : Tidy a) (task : SpawnedTask) : Tidy (a.released env task) := by
  have hmodified : Tidy (a.modifyJob task.jobId (releaseEntry (a.now env))) :=
    h.modifyJob fun _ => rfl
  exact hmodified.frame rfl rfl rfl fun _ hq => hq

/-- The guard is about the state before the slots are given back. -/
theorem settling (h : SlateInv env a) {task : SpawnedTask}
    (hg : SlateGuard a (.completion task elapsed outcome)) (ht : task ∈ a.tasks)
    (hp : task.possible (a.tokenCancelled task.runId) outcome = true)
    (hcur : a.atVersion task.jobId task.version = true) :
    Settling (a.released env task) (task.completion elapsed outcome) (a.released env task) := by
  obtain ⟨job, hj, hv⟩ := atVersion_iff.mp hcur
  have hj' : (a.released env task).jobs.get task.jobId = some (releaseEntry (a.now env) job) :=
    get_modify_of_get hj _
  obtain ⟨hcomplete, hretry⟩ := hg ht hp job hj hv
  refine ⟨released h.tidy task,
    fun hr => ⟨no_retryTimer_of_task h.runs h.keys ht, _, hj', hv, ?_⟩, ?_⟩
  · have hdelay := retryDelay_congr hj hj' rfl
    refine hretry ?_
    unfold retriesAttempt at hr ⊢
    simpa only [SpawnedTask.completion, hdelay] using hr
  · rintro ⟨job'', hj'', hc⟩
    cases hj'.symm.trans hj''
    have hnothing := hcomplete ((completesJob_congr (c := task.completion elapsed outcome) hj
      hj' rfl rfl rfl rfl).symm.trans hc)
    refine hnothing.frame (fun job₁ hj₁ => ?_) (fun _ _ he => he) (fun _ _ hr => hr) fun _ hq => hq
    cases hj'.symm.trans hj₁
    exact ⟨job, hj, rfl, rfl⟩

theorem completion (h : SlateInv env a) {task : SpawnedTask}
    (hg : SlateGuard a (.completion task elapsed outcome)) (ht : task ∈ a.tasks)
    (hp : task.possible (a.tokenCancelled task.runId) outcome = true) :
    Tidy (a.handle env (.completion task elapsed outcome)) := by
  rw [handle_completion env a ht hp]
  split
  · rename_i hcur
    exact (Settling.rule env _ task elapsed outcome).handleOutcome (h.settling hg ht hp hcur)
  · exact released h.tidy task

theorem handle (h : SlateInv env a) (message : Message) (hg : SlateGuard a message) :
    Tidy (a.handle env message) := by
  cases message with
  | command command => exact (Tidy.rule env a command).handleCommand h.tidy
  | completion task elapsed outcome =>
    by_cases hc : task ∈ a.tasks ∧ task.possible (a.tokenCancelled task.runId) outcome
    · exact h.completion hg hc.1 hc.2
    · rw [SchedulerActor.handle, if_neg hc]
      exact h.tidy
  | joinError => exact h.tidy.frame rfl rfl rfl fun _ hq => hq
  | expired keys => exact h.tidy.handleExpiredBatch keys
  | maintenance =>
    rw [SchedulerActor.handle, reanchorTimers]
    split
    · exact h.tidy
    · exact h.tidy.same (.panic a)
  | rehash =>
    rw [SchedulerActor.handle]
    split
    · rename_i hperm
      intro id
      refine (h.tidy id).frame ?_ rfl rfl fun _ hq => hq
      refine congrArg _ (Table.SameContent.get_eq ?_ id)
      exact hperm
    · exact h.tidy

theorem turn (h : SlateInv env a) (message : Message) (hg : SlateGuard a message) :
    SlateInv env (a.turn env message) where
  tidy := turn_keeps Tidy (h.handle message hg) (fun _ ha => ha.settle) h.tidy
  runs := h.runs.turn message
  keys := h.keys.turn message (timerGuard h.tidy message)

theorem initial (config : SchedulerConfig) : SlateInv env (start env config) where
  tidy := fun id => .of_nothing
    ⟨fun _ _ he => (by cases he), fun _ _ hr => (by cases hr), fun _ hp => (by cases hp),
      fun _ hj => by cases hj⟩
  runs := .initial config
  keys := .start config

end SlateInv

/-- **A Job that is not Enabled owns nothing**: in every run in which a result that completes a
    one-shot Job finds it without timers and waiting executions, and only attempts of Enabled Jobs
    are retried. -/
theorem idle_jobs_own_nothing (env : Env) (config : SchedulerConfig) (messages : List Message)
    (h : Along (turn env) SlateGuard (start env config) messages) :
    Throughout (turn env) (IdleJobsOwnNothing env) (start env config) messages := by
  refine throughout_of_invariant
    (fun a message (hi : SlateInv env a) hg => hi.turn message hg) (fun a hi id job hj hs => ?_)
    (SlateInv.initial config) h
  have hoff : ∀ job', a.jobs.get id = some job' → job'.state ≠ .enabled := by
    intro job' hj'
    cases hj.symm.trans hj'
    exact hs
  have hnothing := (hi.tidy id).ownsNothing (not_enabledJob hj hs)
  exact ⟨hnothing, fun expectedVersion => hnothing.enableJob expectedVersion hoff⟩

section Runs

/-- A one-shot Job runs, is Completed, is enabled again, and runs once more. -/
def onceAndAgain : List Message :=
  [.command (.add (some 1) 1 true tomorrow cleanup {}),
   .expired [0],
   .completion (execution 1 1 0) 0 (.finished .completed),
   .command (.enable 1 1),
   .expired [1]]

theorem once_and_again_owns_nothing :
    Along (turn .still) SlateGuard (start .still oneSlot) onceAndAgain ∧
      Throughout (turn .still) (IdleJobsOwnNothing .still) (start .still oneSlot) onceAndAgain := by
  have h : Along (turn .still) SlateGuard (start .still oneSlot) onceAndAgain := by decide +kernel
  exact ⟨h, idle_jobs_own_nothing .still oneSlot onceAndAgain h⟩

/-- **A Completed Job keeps a timer.** Its execution, due since it was told to run now, was still
    waiting for a slot when its priority was changed and its timer for tomorrow set again; the
    success completes the Job, and the timer stays. -/
theorem completed_job_keeps_timer : validateConfig oneSlot = .ok () ∧
      ((after .still oneSlot completedEarly).jobs.get 2).map (·.state) = some .completed ∧
      ((after .still oneSlot completedEarly).timers.get 4).map (·.jobId) = some 2 ∧
      ¬ IdleJobsOwnNothing .still (after .still oneSlot completedEarly) := by
  have hstate : ((after .still oneSlot completedEarly).jobs.get 2).map (·.state) =
      some .completed := by decide +kernel
  have htimer : ((after .still oneSlot completedEarly).timers.get 4).map (·.jobId) = some 2 := by
    decide +kernel
  refine ⟨by decide, hstate, htimer, fun h => ?_⟩
  obtain ⟨job, hj, hs⟩ := map_eq_some_iff.mp hstate
  obtain ⟨e, he, hid⟩ := map_eq_some_iff.mp htimer
  exact (h 2 job hj (by rw [hs]; simp)).1.timers 4 e he hid

end Runs

end Smalux.Scheduler
