/-
  Subject:   Which running executions an operation on a Job cancels.

  A cancellation names a Job and a version: the executions of that version lose their token, and
  no other execution is touched.

  * `Cancels` -- the running executions before and after such a cancellation;
  * `Replaces` -- the operations that end a version of a Job for good: delete, disable (by command
    or by the actor itself) and an update of the trigger or the task;
  * **`replaced_version_cancelled`** -- each of them cancels exactly the executions of the version
    the Job had just before.
-/
import Smalux.Scheduler.Slots

namespace Smalux.Scheduler

open Lib SchedulerActor

/-! ## 1. Cancelling one version -/

/-- Cancel the token, if the execution is of this version of the Job. -/
def cutToken (jobId : JobId) (version : Nat) (r : RunningExecution) : RunningExecution :=
  if r.jobId = jobId ∧ r.version = version then { r with cancelled := true } else r

/-- The executions of one version of a Job are cancelled; every other is as it was. -/
def Cancels (a : SchedulerActor) (jobId : JobId) (version : Nat) (a' : SchedulerActor) : Prop :=
  ∀ runId, a'.running.get runId = (a.running.get runId).map (cutToken jobId version)

theorem cancels_of_running {a a' : SchedulerActor} {jobId : JobId} {version : Nat}
    (h : a'.running = (a.cancelJobVersion jobId version).running) : Cancels a jobId version a' := by
  intro runId
  rw [h]
  exact Table.get_mapVals a.running _ runId

/-- An update cancels only where it replaces the trigger or the task. -/
theorem commitUpdate_cancels (env : Env) (a : SchedulerActor) (jobId : JobId) (job : JobEntry)
    (patch : JobPatch) {plan : JobUpdatePlan} (hc : plan.triggerChanged ∨ plan.taskChanged) :
    Cancels a jobId job.version (a.commitUpdate env jobId patch plan job) := by
  refine cancels_of_running ?_
  show (((a.applyPatch env jobId patch plan job).scheduleUpdated env jobId plan job).cancelReplaced
    jobId plan job).running = _
  unfold cancelReplaced
  rw [if_pos hc]
  unfold cancelJobVersion scheduleUpdated
  split
  · unfold scheduleNormal
    split <;> rfl
  · rfl

/-! ## 2. The operations -/

/-- An operation that succeeds and ends the version the Job has: after it, `a'` is the state. -/
inductive Replaces (env : Env) (a : SchedulerActor) (jobId : JobId) : SchedulerActor → Prop where
  | delete {version} (h : (a.deleteJob env jobId version true).1 = .ok ()) :
      Replaces env a jobId (a.deleteJob env jobId version true).2
  | disable {version reason snapshot} (h : (a.disableJob env jobId version reason).1 = .ok snapshot) :
      Replaces env a jobId (a.disableJob env jobId version reason).2
  | forceDisable {reason} (h : (a.forceDisable env jobId reason).1 = .ok ()) :
      Replaces env a jobId (a.forceDisable env jobId reason).2
  | update {version patch snapshot} (h : (a.updateJob env jobId version patch).1 = .ok snapshot)
      (hc : patch.trigger.isSome ∨ patch.task.isSome) :
      Replaces env a jobId (a.updateJob env jobId version patch).2

/-- **The version that ends is cancelled.** After a successful delete with `cancel_running`, a
    disable, a `force_disable` or an update of the trigger or the task, every running execution
    of the version the Job had just before has lost its token, and no other execution has. -/
theorem replaced_version_cancelled {env : Env} {a a' : SchedulerActor} {jobId : JobId}
    (h : Replaces env a jobId a') :
    ∃ job, a.jobs.get jobId = some job ∧ Cancels a jobId job.version a' := by
  cases h with
  | delete h =>
    unfold deleteJob at h ⊢
    split at h
    · cases h
    · rename_i job hcheck
      exact ⟨job, (checkVersion_ok hcheck).1, cancels_of_running rfl⟩
  | @disable version reason _ h =>
    have hresult := disableJob_result env a jobId version reason
    generalize a.disableJob env jobId version reason = result at hresult h ⊢
    cases hresult with
    | refused => cases h
    | disabled job hj => exact ⟨job, hj, cancels_of_running rfl⟩
  | forceDisable h =>
    unfold SchedulerActor.forceDisable at h ⊢
    split at h
    · cases h
    · rename_i job hj
      split at h
      · cases h
      · exact ⟨job, hj, cancels_of_running rfl⟩
  | @update version patch _ h hc =>
    cases hplan : a.planJobUpdate env jobId version patch with
    | error =>
      rw [updateJob_error env hplan] at h
      cases h
    | ok =>
      obtain ⟨job, hj, -, -, -, htrigger, htask, -⟩ := planJobUpdate_ok env hplan
      rw [updateJob_commit env hplan hj]
      refine ⟨job, hj, commitUpdate_cancels env a.tick jobId job patch ?_⟩
      rw [htrigger, htask]
      exact hc

section LeftBehind

/-- A Job runs at version 1, then an update with RunNow moves it to version 2. -/
def runNowWhileRunning : List Message :=
  [.command (.add (some 1) 1 true everySecond poll {}), .expired [0],
   .command (.update 1 1 { reschedule := .runNow })]

def leftBehind : SchedulerActor := runNowWhileRunning.foldl (turn .still) (start .still twoSlots)

theorem leftBehind_deleted :
    Replaces .still leftBehind 1 (leftBehind.deleteJob .still 1 2 true).2 := by
  refine .delete ?_
  have h : (leftBehind.deleteJob .still 1 2 true).1.isOk = true := by decide +kernel
  cases hd : (leftBehind.deleteJob .still 1 2 true).1 with
  | error => rw [hd] at h; cases h
  | ok => rfl

theorem leftBehind_disabled :
    Replaces .still leftBehind 1 (leftBehind.disableJob .still 1 2 "").2 := by
  have h : (leftBehind.disableJob .still 1 2 "").1.isOk = true := by decide +kernel
  cases hd : (leftBehind.disableJob .still 1 2 "").1 with
  | error => rw [hd] at h; cases h
  | ok => exact .disable hd

theorem leftBehind_updated :
    Replaces .still leftBehind 1 (leftBehind.updateJob .still 1 2 { task := some poll }).2 := by
  have h : (leftBehind.updateJob .still 1 2 { task := some poll }).1.isOk = true := by
    decide +kernel
  cases hd : (leftBehind.updateJob .still 1 2 { task := some poll }).1 with
  | error => rw [hd] at h; cases h
  | ok => exact .update hd (.inr rfl)

theorem replaced_version_cancelled_delete :
    Replaces .still leftBehind 1 (leftBehind.deleteJob .still 1 2 true).2 ∧
      ∃ job, leftBehind.jobs.get 1 = some job ∧
        Cancels leftBehind 1 job.version (leftBehind.deleteJob .still 1 2 true).2 :=
  ⟨leftBehind_deleted, replaced_version_cancelled leftBehind_deleted⟩

/-- **The execution of version 1 keeps its token**, whether its Job, now at version 2, is deleted,
    disabled or given another task. -/
theorem older_version_keeps_running :
    Replaces .still leftBehind 1 (leftBehind.deleteJob .still 1 2 true).2 ∧
      (leftBehind.deleteJob .still 1 2 true).2.running.get 0 = some ⟨1, 1, false⟩ ∧
      Replaces .still leftBehind 1 (leftBehind.disableJob .still 1 2 "").2 ∧
      (leftBehind.disableJob .still 1 2 "").2.running.get 0 = some ⟨1, 1, false⟩ ∧
      Replaces .still leftBehind 1 (leftBehind.updateJob .still 1 2 { task := some poll }).2 ∧
      (leftBehind.updateJob .still 1 2 { task := some poll }).2.running.get 0 =
        some ⟨1, 1, false⟩ :=
  ⟨leftBehind_deleted, by decide +kernel, leftBehind_disabled, by decide +kernel,
    leftBehind_updated, by decide +kernel⟩

end LeftBehind

end Smalux.Scheduler
