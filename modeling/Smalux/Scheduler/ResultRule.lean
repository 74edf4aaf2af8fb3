/-
  Subject:   A rule for what the result of an execution keeps (execution.rs).

  What becomes of a Job when one of its executions ends is decided by the result and by the Job's
  policies: it is marked as a success or a failure, completed, disabled, deleted, or the attempt is
  retried. The state in which the result arrives says which of these can happen (`OutcomeMutates`,
  `retriesAttempt`, `completesJob`). A property that each of them keeps under its condition is kept
  by the handler (`ResultRule.handleOutcome`).
-/
import Smalux.Scheduler.Machine

namespace Smalux.Scheduler

open Lib SchedulerActor

section

variable (a : SchedulerActor) (c : TaskCompletion)

/-! ## 1. What a result can do -/

/-- A final failure brings the Job to its threshold. -/
def FinalFailureDisables (jobId : JobId) (error : String) (count : Bool) : Prop :=
  ∃ job, a.jobs.get jobId = some job ∧ thresholdReached (failEntry error count job) = true

/-- A failed attempt disables the Job: at once, or as the last one it may have. -/
def FailureDisables (error : String) (class_ : FailureClass) : Prop :=
  class_ = .permanent ∨
    (a.retryDelay c.jobId c.attempt class_ = none ∧
      FinalFailureDisables a c.jobId error (a.failureCounts c.jobId class_))

/-- The result disables or deletes the Job. -/
def OutcomeMutates : Prop :=
  match c.outcome with
  | .finished .completed => False
  | .finished .outputDelivered => False
  | .finished (.taskTransient error) => FailureDisables a c error .transient
  | .finished (.taskPermanent _) => True
  | .finished (.callbackTransient error) => FinalFailureDisables a c.jobId error false
  | .finished (.callbackPermanent _) => True
  | .finished .channelClosed => True
  | .timedOut => FailureDisables a c "task execution timed out" .timeout
  | .panicked message => FailureDisables a c message .panic
  | .cancelled => False

/-- The attempt failed, and the policy grants another one. -/
def SchedulerActor.retriesAttempt : Bool :=
  match c.outcome with
  | .finished (.taskTransient _) => (a.retryDelay c.jobId c.attempt .transient).isSome
  | .timedOut => (a.retryDelay c.jobId c.attempt .timeout).isSome
  | .panicked _ => (a.retryDelay c.jobId c.attempt .panic).isSome
  | _ => false

/-- The failure is final, but not the one that disables the Job. -/
def SchedulerActor.failsFinally (job : JobEntry) (c : TaskCompletion) (error : String)
    (class_ : FailureClass) : Bool :=
  (a.retryDelay c.jobId c.attempt class_).isNone &&
    !thresholdReached (failEntry error (a.failureCounts c.jobId class_) job)

/-- The result makes a one-shot Job Completed. -/
def SchedulerActor.completesJob (job : JobEntry) (c : TaskCompletion) : Bool :=
  job.trigger.schedule.isOnce &&
    match c.outcome with
    | .finished .completed => true
    | .finished .outputDelivered => true
    | .finished (.taskTransient error) => a.failsFinally job c error .transient
    | .finished (.callbackTransient error) => !thresholdReached (failEntry error false job)
    | .timedOut => a.failsFinally job c "task execution timed out" .timeout
    | .panicked message => a.failsFinally job c message .panic
    | _ => false

/-- The Job is there, and the result makes it Completed. -/
def SchedulerActor.CompletesJob : Prop :=
  ∃ job, a.jobs.get c.jobId = some job ∧ a.completesJob job c = true

/-! ## 2. The rule -/

/-- `P` is kept by what the result of `task`, arriving in the state `start`, may do, and `Q` holds
    when it has been handled. -/
structure ResultRule (env : Env) (start : SchedulerActor) (task : SpawnedTask) (elapsed : Duration)
    (outcome : CompletionOutcome) (P Q : SchedulerActor → Prop) : Prop where
  emit : ∀ {a} kind, kind.reportable [task] → P a → P (a.emit env kind)
  tick : ∀ {a}, P a → P a.tick
  panic : ∀ {a}, P a → P { a with panicked := true }
  cancel : ∀ {a}, P a → P (a.cancelJobVersion task.jobId task.version)
  succeed : start.retriesAttempt (task.completion elapsed outcome) = false →
    (∀ job, start.jobs.get task.jobId = some job → job.trigger.schedule.isOnce = true →
      start.CompletesJob (task.completion elapsed outcome)) →
    P start → P (start.modifyJob task.jobId successEntry)
  fail : ∀ {a} error count, P a → P (a.modifyJob task.jobId (failEntry error count))
  complete : ∀ {a job} now, start.CompletesJob (task.completion elapsed outcome) →
    a.jobs.get task.jobId = some job → job.trigger.schedule.isOnce = true → P a →
    Q (a.modifyJob task.jobId (completeEntry now))
  disable : ∀ {a job} reason, OutcomeMutates start (task.completion elapsed outcome) →
    a.jobs.get task.jobId = some job → P a →
    Q (a.commitDisable env task.jobId job (job.version + 1) reason)
  delete : ∀ {a job}, OutcomeMutates start (task.completion elapsed outcome) →
    a.jobs.get task.jobId = some job → P a → Q (a.commitDelete env task.jobId job true)
  retry : ∀ {a} runAt, start.retriesAttempt (task.completion elapsed outcome) = true →
    a.jobs = start.jobs → P a →
    Q (a.scheduleRetry env task.jobId task.version task.runId task.scheduledAt (task.attempt + 1)
      runAt)
  done : ∀ {a}, P a → Q a

end

namespace ResultRule

variable {env : Env} {start a : SchedulerActor} {task : SpawnedTask} {elapsed : Duration}
  {outcome : CompletionOutcome} {P Q : SchedulerActor → Prop}

section

variable (h : ResultRule env start task elapsed outcome P Q)
include h

theorem forceDisable (ha : P a) (hm : OutcomeMutates start (task.completion elapsed outcome))
    (reason : String) : Q (a.forceDisable env task.jobId reason).2 := by
  rcases forceDisable_cases env a task.jobId reason with ⟨he, -⟩ | ⟨job, hj, -, he⟩
  · rw [he]
    exact h.done ha
  · rw [he]
    exact h.disable reason hm hj ha

theorem recordFinalFailure (ha : P a) (hjobs : a.jobs = start.jobs) (error : String) (count : Bool)
    (hm : FinalFailureDisables start task.jobId error count →
      OutcomeMutates start (task.completion elapsed outcome))
    (he : ∀ job, start.jobs.get task.jobId = some job → job.trigger.schedule.isOnce = true →
      thresholdReached (failEntry error count job) = false →
      start.completesJob job (task.completion elapsed outcome) = true) :
    Q (a.recordFinalFailure env task.jobId error count) := by
  unfold SchedulerActor.recordFinalFailure
  split
  · exact h.done ha
  · rename_i job hj
    rw [hjobs] at hj
    have hfail := h.fail error count ha
    split
    · rename_i ht
      exact h.forceDisable hfail (hm ⟨job, hj, ht⟩) error
    · rename_i ht
      split
      · rename_i honce
        have hget : (a.modifyJob task.jobId (failEntry error count)).tick.jobs.get task.jobId =
            some (failEntry error count job) := Table.get_modify_of_get (by rw [hjobs]; exact hj) _
        exact h.complete _ ⟨job, hj, he job hj honce (Bool.eq_false_iff.mpr ht)⟩ hget honce
          (h.tick hfail)
      · exact h.done hfail

theorem handleExecutionFailure (ha : P a) (hjobs : a.jobs = start.jobs) (error : String)
    (class_ : FailureClass)
    (hm : FailureDisables start (task.completion elapsed outcome) error class_ →
      OutcomeMutates start (task.completion elapsed outcome))
    (hr : class_ ≠ .permanent → (start.retryDelay task.jobId task.attempt class_).isSome = true →
      start.retriesAttempt (task.completion elapsed outcome) = true)
    (he : class_ ≠ .permanent → ∀ job, start.jobs.get task.jobId = some job →
      (job.trigger.schedule.isOnce &&
        start.failsFinally job (task.completion elapsed outcome) error class_) = true →
      start.completesJob job (task.completion elapsed outcome) = true) :
    Q (a.handleExecutionFailure env (task.completion elapsed outcome) error class_) := by
  have hself : ∀ retry, (SchedulerEventKind.executionFailed task.jobId task.version task.runId
      task.attempt error retry).reportable [task] :=
    fun _ => ⟨task, List.mem_singleton_self _, ⟨rfl, rfl, rfl⟩, rfl⟩
  have hdelay : a.retryDelay task.jobId task.attempt class_ =
      start.retryDelay task.jobId task.attempt class_ := by
    unfold retryDelay
    rw [hjobs]
  have hcounts : a.failureCounts task.jobId class_ = start.failureCounts task.jobId class_ := by
    unfold failureCounts
    rw [hjobs]
  unfold SchedulerActor.handleExecutionFailure
  split
  · rename_i hc
    exact h.forceDisable (h.emit _ (hself _) ha) (hm (.inl hc)) error
  · rename_i hc
    have hemit := h.emit _ (hself (a.retryDelay task.jobId task.attempt class_).isSome) ha
    dsimp only
    split
    · rename_i delay hd
      split
      · refine h.retry _ (hr hc ?_) hjobs (h.tick hemit)
        rw [← hdelay]
        exact Option.isSome_iff_exists.mpr ⟨delay, hd⟩
      · exact h.done (h.panic hemit)
    · rename_i hd
      have hnone := hdelay.symm.trans hd
      refine h.recordFinalFailure hemit hjobs error _ (fun hf => hm (.inr ⟨hnone, ?_⟩))
        fun job hj honce ht => he hc job hj ?_
      · exact hcounts ▸ hf
      · have ht : thresholdReached (failEntry error (a.failureCounts task.jobId class_) job) = false :=
          ht
        have hnone : start.retryDelay (task.completion elapsed outcome).jobId
            (task.completion elapsed outcome).attempt class_ = none := hnone
        rw [hcounts] at ht
        unfold failsFinally
        rw [honce, hnone, Option.isNone_none, Bool.true_and, Bool.true_and, Bool.not_eq_true']
        exact ht

/-- **The rule**: a result of the current version keeps `P`, and brings about `Q`. -/
theorem handleOutcome (hs : P start) :
    Q (start.handleOutcome env (task.completion elapsed outcome)) := by
  have hself : task ∈ [task] := List.mem_singleton_self _
  have hid : task.is task.jobId task.version task.runId := ⟨rfl, rfl, rfl⟩
  have hsuccess : ∀ delivered, start.retriesAttempt (task.completion elapsed outcome) = false →
      (∀ job, job.trigger.schedule.isOnce = true →
      start.completesJob job (task.completion elapsed outcome) = true) →
      Q (start.recordExecutionSuccess env (task.completion elapsed outcome) delivered) := by
    intro delivered hr hc
    have hdone := h.emit (.executionSucceeded task.jobId task.version task.runId task.attempt
      (durationMs elapsed)) ⟨task, hself, hid, rfl⟩
      (h.succeed hr (fun job hj honce => ⟨job, hj, hc job honce⟩) hs)
    unfold recordExecutionSuccess
    split
    · exact h.done (h.emit (.outputDelivered _ _ _) ⟨task, hself, hid⟩ hdone)
    · exact h.done hdone
  have hcallback := fun error =>
    h.emit (.callbackFailed task.jobId task.version task.runId error) ⟨task, hself, hid⟩ hs
  cases outcome with
  | finished result =>
    cases result with
    | completed => exact hsuccess false rfl fun job honce => by rw [completesJob, honce]; rfl
    | outputDelivered => exact hsuccess true rfl fun job honce => by rw [completesJob, honce]; rfl
    | taskTransient error =>
      exact h.handleExecutionFailure hs rfl error .transient id (fun _ hr => hr) fun _ _ _ he => he
    | taskPermanent error =>
      exact h.handleExecutionFailure hs rfl error .permanent (fun _ => trivial)
        (fun hc => absurd rfl hc) fun hc => absurd rfl hc
    | callbackTransient error =>
      refine h.recordFinalFailure (hcallback error) rfl error false id fun job hj honce ht => ?_
      rw [completesJob, honce, Bool.true_and]
      exact Bool.not_eq_true' _ ▸ ht
    | callbackPermanent error => exact h.forceDisable (hcallback error) trivial error
    | channelClosed =>
      have hcancelled := h.cancel (h.emit (.outputChannelClosed task.jobId task.version task.runId)
        ⟨task, hself, hid⟩ hs)
      unfold SchedulerActor.handleOutcome SpawnedTask.completion handleClosedOutputChannel deleteJob
      dsimp only
      split
      · exact h.done hcancelled
      · rename_i job hc
        exact h.delete trivial (checkVersion_ok hc).1 hcancelled
  | timedOut =>
    exact h.handleExecutionFailure (h.emit (.executionTimedOut _ _ _ _) ⟨task, hself, hid, rfl⟩ hs)
      rfl _ .timeout id (fun _ hr => hr) fun _ _ _ he => he
  | panicked message =>
    exact h.handleExecutionFailure (h.emit (.executionPanicked _ _ _ _ _) ⟨task, hself, hid, rfl⟩ hs)
      rfl message .panic id (fun _ hr => hr) fun _ _ _ he => he
  | cancelled => exact h.done (h.emit (.executionCancelled _ _ _) ⟨task, hself, hid⟩ hs)

end

end ResultRule

end Smalux.Scheduler
