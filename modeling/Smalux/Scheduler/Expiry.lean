/-
  Subject:   What one expired timer does (scheduling.rs).

  `Expiry` lists the four ways `handle_timer` can go: the timer is ignored, the retry of an
  execution is admitted, the schedule has no next occurrence and the Job is disabled, or the
  occurrences that are due are admitted and the next timer is set.
-/
import Smalux.Scheduler.Waiting
import Smalux.Scheduler.CommandRule

namespace Smalux.Scheduler

open Lib SchedulerActor

/-- The schedule has no next time, or something waits -- with keep-latest only if there was at most
    one occurrence. -/
def KeptBack (job : JobEntry) (due : DueSchedule) (blocked : List PendingExecution) : Prop :=
  due.next ≠ none → job.coalescing = .keepAll ∨ due.occurrences.length ≤ 1 → blocked ≠ []

/-- What handling an expired timer leaves. -/
inductive Expiry (env : Env) (a : SchedulerActor) (entry : TimerEntry) (batchId : Nat) :
    SchedulerActor → Prop where
  | ignored (h : Ignored a entry) : Expiry env a entry batchId a
  | retried (job : JobEntry) (runId : RunId) (scheduledAt : DateTime) (attempt : Nat)
      (blocked : List PendingExecution) (a' : SchedulerActor)
      (hj : a.jobs.get entry.jobId = some job) (hv : job.version = entry.version)
      (hs : job.state = .enabled) (hk : entry.kind = .retry runId scheduledAt attempt)
      (hadm : Admitted { a with retryTimers := a.retryTimers.remove runId } entry.jobId job blocked
        [entry.retryOf runId scheduledAt attempt job.priority batchId] a')
      (hheld : job.blocked ⊆ blocked) : Expiry env a entry batchId a'
  | failed (job : JobEntry) (error : SchedulerError)
      (hj : a.jobs.get entry.jobId = some job) (hv : job.version = entry.version)
      (hs : job.state = .enabled) (hk : entry.kind = .normal ∨ entry.kind = .runNow)
      (hdue : (a.modifyJob entry.jobId clearNormalTimer).tick.dueSchedule env (clearNormalTimer job)
        entry.runAt (a.now env) (entry.kind == TimerKind.runNow) = .error error) :
      Expiry env a entry batchId
        ((a.modifyJob entry.jobId clearNormalTimer).tick.forceDisable env entry.jobId error.text).2
  | fired (job : JobEntry) (due : DueSchedule) (b : SchedulerActor)
      (blocked drawn : List PendingExecution) (b' a' : SchedulerActor)
      (hj : a.jobs.get entry.jobId = some job) (hv : job.version = entry.version)
      (hs : job.state = .enabled) (hk : entry.kind = .normal ∨ entry.kind = .runNow)
      (hdue : (a.modifyJob entry.jobId clearNormalTimer).tick.dueSchedule env (clearNormalTimer job)
        entry.runAt (a.now env) (entry.kind == TimerKind.runNow) = .ok due)
      (hb : WorkAlike (a.modifyJob entry.jobId clearNormalTimer) b)
      (hadm : Admitted b entry.jobId (clearNormalTimer job) blocked drawn b')
      (hlen : drawn.length = due.occurrences.length)
      (hdrawn : ∀ p ∈ drawn, Drawn env b entry.jobId job.version
        (triggerKind job.trigger.schedule (entry.kind == TimerKind.runNow)) p)
      (hnext : a' = b' ∧ KeptBack job due blocked ∨
        ∃ next, a' = b'.scheduleNormal env entry.jobId next .normal)
      (hc : b.config = a.config) (htimes : ∀ p ∈ drawn, p.scheduledAt ∈ due.occurrences) :
      Expiry env a entry batchId a'

section Cases

variable {env : Env} {a : SchedulerActor} {entry : TimerEntry}

theorem get_cleared {b : SchedulerActor} {id : JobId} {job : JobEntry}
    (h : WorkAlike (a.modifyJob id clearNormalTimer) b) (hj : a.jobs.get id = some job) :
    b.jobs.get id = some (clearNormalTimer job) := by
  rw [h.jobs]
  exact Table.get_modify_of_get hj _

/-- The executions that are due are admitted, and the next timer may be set. -/
theorem admitDue_cases {job : JobEntry} (hj : a.jobs.get entry.jobId = some job)
    (scheduledAt : DateTime) (batchId : Nat) (runNow : Bool) (due : DueSchedule) :
    ∃ b blocked drawn b', WorkAlike a b ∧ Admitted b entry.jobId job blocked drawn b' ∧
      drawn.length = due.occurrences.length ∧ (∀ p ∈ drawn, Drawn env b entry.jobId job.version
        (triggerKind job.trigger.schedule runNow) p) ∧
      (a.admitDue env entry.jobId job scheduledAt batchId runNow due = b' ∧
          KeptBack job due blocked ∨
        ∃ next, a.admitDue env entry.jobId job scheduledAt batchId runNow due =
          b'.scheduleNormal env entry.jobId next .normal) ∧
      b.config = a.config ∧ ∀ p ∈ drawn, p.scheduledAt ∈ due.occurrences := by
  unfold admitDue
  generalize hb : (if due.occurrences = [] then
    a.emit env (.triggerSkipped entry.jobId job.version scheduledAt
      "misfire policy skipped expired occurrences") else a) = b
  have ⟨halike, hc⟩ : WorkAlike a b ∧ b.config = a.config := by
    rw [← hb]
    split
    · exact ⟨.emit env a _, rfl⟩
    · exact ⟨.refl a, rfl⟩
  have hjb : b.jobs.get entry.jobId = some job := by rw [halike.jobs]; exact hj
  obtain ⟨blocked, drawn, hadm, hlen, hdrawn, hne⟩ := Admitted.admitOccurrences env job batchId
    (triggerKind job.trigger.schedule runNow) due.occurrences false
    (Admitted.start (a := b) ⟨rfl, hjb, fun _ _ => rfl⟩ rfl rfl rfl)
  refine ⟨b, blocked, drawn, _, halike, hadm, hlen, fun p hp => (hdrawn p hp).1, ?_, hc,
    fun p hp => (hdrawn p hp).2⟩
  dsimp only
  split
  · exact .inr ⟨_, rfl⟩
  · rename_i hno
    refine .inl ⟨rfl, fun hsome hone => hne nofun (hone.imp_right fun h => .inr ⟨rfl, h⟩) ?_⟩
    obtain ⟨next, hnext⟩ := Option.ne_none_iff_exists'.mp hsome
    by_contra hf
    exact hno next (Bool.eq_false_iff.mpr hf) hnext

/-- **Every expired timer** goes one of the four ways. -/
theorem expiry (env : Env) (a : SchedulerActor) (entry : TimerEntry) (batchId : Nat) :
    Expiry env a entry batchId (a.handleTimer env entry batchId) := by
  unfold handleTimer
  split
  · rename_i hnone
    exact .ignored fun job hj => by rw [hnone] at hj; cases hj
  · rename_i job hj
    split
    · rename_i hignored
      refine .ignored fun job' hj' => ?_
      cases hj.symm.trans hj'
      exact hignored
    · rename_i hcurrent
      have hv : job.version = entry.version := by
        by_contra hne
        exact hcurrent (.inl hne)
      have hs : job.state = .enabled := by
        by_contra hne
        exact hcurrent (.inr hne)
      split
      · rename_i runId scheduledAt attempt hk
        have hadm := (Admitted.start (a := { a with retryTimers := a.retryTimers.remove runId })
          ⟨rfl, hj, fun _ _ => rfl⟩ rfl rfl rfl).admitPending env
          (p := entry.retryOf runId scheduledAt attempt job.priority batchId) rfl true
        -- a retry replaces nothing
        rw [keptBlocked, if_neg (by simp [TimerEntry.retryOf, PendingKind.isReplaceableTrigger])]
          at hadm
        exact .retried job runId scheduledAt attempt _ _ hj hv hs hk hadm subset_holdIf
      · rename_i hkind
        have hk : entry.kind = .normal ∨ entry.kind = .runNow := by
          cases hk : entry.kind with
          | normal => exact .inl rfl
          | runNow => exact .inr rfl
          | retry r s n => exact absurd hk (hkind r s n)
        have hj' : (a.modifyJob entry.jobId clearNormalTimer).tick.jobs.get entry.jobId =
            some (clearNormalTimer job) := Table.get_modify_of_get hj _
        unfold handleNormalTrigger
        dsimp only
        rw [hj']
        dsimp only
        split
        · rename_i error hdue
          exact .failed job error hj hv hs hk hdue
        · rename_i due hdue
          obtain ⟨b, blocked, drawn, b', halike, hadm, hlen, hdrawn, hnext, hc, htimes⟩ :=
            admitDue_cases hj' entry.runAt batchId (entry.kind == TimerKind.runNow) due
          exact .fired job due b blocked drawn b' _ hj hv hs hk hdue
            ((WorkAlike.tick _).trans halike) hadm hlen hdrawn hnext hc htimes

end Cases

end Smalux.Scheduler
