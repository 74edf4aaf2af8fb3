/-
  Subject:   Every handler of the actor is a sequence of steps of the machine.

  One lemma per function of the actor, in the order of the source files. Each says which kinds of
  steps the function takes, so that an invariant that holds only along some kinds can still be
  carried through the functions that use no other.

  * `settle_steps` -- what the loop does before it waits;
  * `handleExpiredBatch_steps`, `completion_steps`, `command_steps` -- the handlers;
  * **`run_refines_machine`** -- whole runs.
-/
import Smalux.Scheduler.ResultRule
import Smalux.Scheduler.CommandRule

namespace Smalux.Scheduler

open Lib SchedulerActor List ReadyQueue

section Handlers

variable {env : Env} {ok : StepKind → Prop} {a : SchedulerActor} {pp : List (Nat × TimerEntry)}
  {hs : List PendingExecution} {fs : List SpawnedTask}

/-! ## 1. The smallest operations -/

theorem tick_steps (hp : ok .plain) : Steps env ok ⟨a, pp, hs, fs⟩ ⟨a.tick, pp, hs, fs⟩ :=
  .one hp (.silent _ a.configRevision a.batchSequence (a.ticks + 1) a.jobsIssued a.panicked)

theorem emit_steps (hp : ok .plain) (kind : SchedulerEventKind) (h : kind.reportable fs) :
    Steps env ok ⟨a, pp, hs, fs⟩ ⟨a.emit env kind, pp, hs, fs⟩ := .one hp (.emit _ kind h)

/-- Any change of the queue that only removes executions. -/
theorem shrink_steps (hp : ok .plain) (ready : ReadyQueue)
    (h : ∀ runId p, ready.pending.get runId = some p → a.ready.pending.get runId = some p) :
    Steps env ok ⟨a, pp, hs, fs⟩ ⟨{ a with ready := ready }, pp, hs, fs⟩ :=
  .one hp (.shrinkReady _ ready h)

theorem forceDisable_steps (a : SchedulerActor) (jobId : JobId) (reason : String)
    (hm : ok (.mutation jobId)) :
    Steps env ok ⟨a, pp, hs, fs⟩ ⟨(a.forceDisable env jobId reason).2, pp, hs, fs⟩ := by
  rcases forceDisable_cases env a jobId reason with ⟨he, -⟩ | ⟨job, hj, -, he⟩
  · rw [he]
    exact .refl
  · rw [he]
    exact .one hm (.disable _ jobId job reason hj)

/-! ## 2. Admission (scheduling.rs) -/

theorem block_steps (hp : ok .plain) (hd : ok .work) (p : PendingExecution) :
    Steps env ok ⟨a, pp, p :: hs, fs⟩ ⟨a.block env p, pp, hs, fs⟩ :=
  (Steps.one hd (.block ⟨a, pp, p :: hs, fs⟩ p hs rfl)).trans (emit_steps hp _ trivial)

theorem emitReplaced_steps (hp : ok .plain) (jobId : JobId) (replacement : RunId) :
    ∀ (removed : List RunId) (a : SchedulerActor),
      Steps env ok ⟨a, pp, hs, fs⟩ ⟨a.emitReplaced env jobId replacement removed, pp, hs, fs⟩
  | [], _ => .refl
  | r :: rest, a => by
    exact (emit_steps hp (.pendingReplaced jobId r replacement) trivial).trans
      (emitReplaced_steps hp jobId replacement rest _)

section

variable (hp : ok .plain) (hd : ok .work)
include hp hd

section

variable (p : PendingExecution)

theorem coalesce_steps (job : JobEntry) :
    Steps env ok ⟨a, pp, hs, fs⟩ ⟨a.coalesce env p job, pp, hs, fs⟩ := by
  refine (shrink_steps hp (a.ready.removeNormalTriggers p.jobId).2
    fun _ _ => get_retain_some).trans ?_
  refine (Steps.one hd (.dropReplaceable _ p.jobId)).trans ?_
  exact emitReplaced_steps hp p.jobId p.runId _ _

theorem enqueue_steps : Steps env ok ⟨a, pp, p :: hs, fs⟩ ⟨a.enqueue env p, pp, hs, fs⟩ :=
  (Steps.one hd (.queue ⟨a, pp, p :: hs, fs⟩ p hs rfl)).trans (emit_steps hp _ trivial)

theorem admitWithin_steps (job : JobEntry) (capacity : CapacityPolicy) :
    Steps env ok ⟨a, pp, p :: hs, fs⟩ ⟨(a.admitWithin env p job capacity).2, pp, hs, fs⟩ := by
  unfold admitWithin
  split
  · cases capacity with
    | skipNewest =>
      exact Steps.trans (emit_steps hp (.triggerSkipped _ _ _ _) trivial)
        (.one hd (.drop _ p hs rfl))
    | replaceOldestTrigger =>
      cases ho : a.ready.removeOldestTrigger p.jobId with
      | mk old ready =>
        cases old with
        | none => exact block_steps hp hd p
        | some =>
          refine Steps.trans (shrink_steps hp ready fun r e he => ?_)
            (Steps.trans (emit_steps hp (.pendingReplaced _ _ _) trivial)
              (enqueue_steps hp hd p))
          have : (a.ready.removeOldestTrigger p.jobId).2.pending.get r = some e := by
            rw [ho]; exact he
          exact get_removeOldestTrigger_some this
    | backpressure => exact block_steps hp hd p
  · exact enqueue_steps hp hd p

theorem admitPending_steps (force : Bool) :
    Steps env ok ⟨a, pp, p :: hs, fs⟩ ⟨(a.admitPending env p force).2, pp, hs, fs⟩ := by
  unfold admitPending
  split
  · exact .one hd (.drop _ p hs rfl)
  · rename_i job hj
    refine Steps.trans ?_ (admitWithin_steps hp hd p job _)
    split
    · exact coalesce_steps hp hd p job
    · exact .refl

end

theorem admitOccurrences_steps (jobId : JobId) (job : JobEntry) (batchId : Nat) (kind : PendingKind) :
    ∀ (occurrences : List DateTime) (blocked : Bool) (a : SchedulerActor),
      Steps env ok ⟨a, pp, hs, fs⟩
        ⟨(a.admitOccurrences env jobId job batchId kind blocked occurrences).2, pp, hs, fs⟩
  | [], _, _ => .refl
  | occurrence :: rest, blocked, a => by
    refine (Steps.one hd (.draw ⟨a, pp, hs, fs⟩
      { jobId := jobId, version := job.version, runId := env.runIds a.issued, attempt := 1,
        scheduledAt := occurrence, kind := kind, priority := job.priority, batchId := batchId }
      rfl rfl)).trans ?_
    exact (admitPending_steps hp hd _ _).trans
      (admitOccurrences_steps jobId job batchId kind rest _ _)

/-! ## 3. Expired timers (scheduling.rs) -/

theorem admitDue_steps (jobId : JobId) (job : JobEntry) (scheduledAt : DateTime) (batchId : Nat)
    (runNow : Bool) (due : DueSchedule) :
    Steps env ok ⟨a, pp, hs, fs⟩
      ⟨a.admitDue env jobId job scheduledAt batchId runNow due, pp, hs, fs⟩ := by
  have hskip : Steps env ok ⟨a, pp, hs, fs⟩
      ⟨if due.occurrences = [] then a.emit env (.triggerSkipped jobId job.version scheduledAt
        "misfire policy skipped expired occurrences") else a, pp, hs, fs⟩ := by
    split
    · exact emit_steps hp _ trivial
    · exact .refl
  unfold admitDue
  dsimp only
  refine hskip.trans ((admitOccurrences_steps hp hd jobId job batchId
    (triggerKind job.trigger.schedule runNow) due.occurrences false _).trans ?_)
  generalize SchedulerActor.admitOccurrences env _ jobId job batchId
    (triggerKind job.trigger.schedule runNow) false due.occurrences = admitted
  split
  · exact .one hp (.scheduleNormal _ jobId _ .normal (.inl rfl))
  · exact .refl

/-- The due times of the Job at `jobId` cannot be computed: the Job will be disabled. -/
def DueFails (env : Env) (a : SchedulerActor) (jobId : JobId) (scheduledAt : DateTime)
    (runNow : Bool) : Prop :=
  ∃ job error, a.jobs.get jobId = some job ∧
    a.dueSchedule env job scheduledAt (a.now env) runNow = .error error

theorem handleNormalTrigger_steps (jobId : JobId) (scheduledAt : DateTime) (batchId : Nat)
    (runNow : Bool)
    (hm : DueFails env a jobId scheduledAt runNow → ok (.mutation jobId)) :
    Steps env ok ⟨a, pp, hs, fs⟩
      ⟨a.handleNormalTrigger env jobId scheduledAt batchId runNow, pp, hs, fs⟩ := by
  unfold handleNormalTrigger
  dsimp only
  refine (tick_steps hp).trans ?_
  split
  · exact .refl
  · rename_i job hj
    split
    · rename_i error he
      exact forceDisable_steps _ jobId _ (hm ⟨job, error, hj, he⟩)
    · exact admitDue_steps hp hd jobId job scheduledAt batchId runNow _

/-- The expired timer disables its Job. -/
def TimerDisables (env : Env) (a : SchedulerActor) (entry : TimerEntry) : Prop :=
  ¬ Ignored a entry ∧ entry.kind = .normal ∧
    DueFails env (a.modifyJob entry.jobId clearNormalTimer) entry.jobId entry.runAt false

omit hp hd in
theorem not_ignored {entry : TimerEntry} {job : JobEntry} (hj : a.jobs.get entry.jobId = some job)
    (h : ¬ (job.version ≠ entry.version ∨ job.state ≠ .enabled)) :
    job.version = entry.version ∧ job.state = .enabled ∧ ¬ Ignored a entry := by
  rw [not_or, not_not, not_not] at h
  exact ⟨h.1, h.2, fun hi => (hi job hj).elim (· h.1) (· h.2)⟩

theorem handleTimer_steps (key : Nat) (entry : TimerEntry) (batchId : Nat)
    (hm : TimerDisables env a entry → ok (.mutation entry.jobId)) :
    Steps env ok ⟨a, (key, entry) :: pp, hs, fs⟩ ⟨a.handleTimer env entry batchId, pp, hs, fs⟩ := by
  unfold handleTimer
  split
  · rename_i hn
    refine .one hp (.ignore _ key entry pp rfl fun job hj => ?_)
    rw [hn] at hj
    cases hj
  · rename_i job hj
    split
    · rename_i hi
      refine .one hp (.ignore _ key entry pp rfl fun job' hj' => ?_)
      rw [hj] at hj'
      cases hj'
      exact hi
    · rename_i hi
      obtain ⟨hv, he, hni⟩ := not_ignored hj hi
      cases hk : entry.kind with
      | retry runId scheduledAt attempt =>
        refine (Steps.one hp (.fireRetry ⟨a, (key, entry) :: pp, hs, fs⟩ key entry pp job runId
          scheduledAt attempt batchId rfl hj hv he hk)).trans ?_
        exact admitPending_steps hp hd _ true
      | normal =>
        refine (Steps.one hd (.fire ⟨a, (key, entry) :: pp, hs, fs⟩ key entry pp job rfl hj hv he
          (.inl hk))).trans ?_
        exact handleNormalTrigger_steps hp hd entry.jobId entry.runAt batchId _
          fun hf => hm ⟨hni, hk, hf⟩
      | runNow =>
        refine (Steps.one hd (.fire ⟨a, (key, entry) :: pp, hs, fs⟩ key entry pp job rfl hj hv he
          (.inr hk))).trans ?_
        -- the due time of a RunNow timer is the present: nothing to fail
        exact handleNormalTrigger_steps hp hd entry.jobId entry.runAt batchId _
          fun ⟨_, _, _, hf⟩ => by cases hf

/-- No timer of the batch disables its Job while the batch is handled. -/
def BatchDisablesOnly (env : Env) (ok : StepKind → Prop) (batchId : Nat) :
    SchedulerActor → List (Nat × TimerEntry) → Prop
  | _, [] => True
  | a, expired :: rest =>
    (TimerDisables env a expired.2 → ok (.mutation expired.2.jobId)) ∧
      BatchDisablesOnly env ok batchId (a.handleTimer env expired.2 batchId) rest

/-- By itself, the actor disables or deletes only Jobs that `ok` allows to be: the result that is
    handled leaves the other Jobs as they are, and so do the timers that expire. -/
def MutatesOnly (env : Env) (ok : StepKind → Prop) (a : SchedulerActor) : Message → Prop
  | .completion task elapsed outcome =>
    a.atVersion task.jobId task.version = true →
      OutcomeMutates (({ a with tasks := a.tasks.erase task }).release env task.jobId task.runId)
        (task.completion elapsed outcome) → ok (.mutation task.jobId)
  | .expired keys =>
    BatchDisablesOnly env ok (wrappingSucc a.batchSequence)
      { a with
        batchSequence := wrappingSucc a.batchSequence
        timers := (popExpired a.timers (keys.take a.config.dueBatchSize)).2 }
      (popExpired a.timers (keys.take a.config.dueBatchSize)).1
  | _ => True

theorem handleTimers_steps (batchId : Nat) :
    ∀ (entries : List (Nat × TimerEntry)) (a : SchedulerActor),
      BatchDisablesOnly env ok batchId a entries →
      Steps env ok ⟨a, entries, hs, fs⟩ ⟨a.handleTimers env batchId entries, [], hs, fs⟩
  | [], _, _ => .refl
  | (key, entry) :: rest, _, hm =>
    (handleTimer_steps hp hd key entry batchId hm.1).trans
      (handleTimers_steps batchId rest _ hm.2)

omit hp hd in
theorem popExpired_steps (hx : ok .expire) : ∀ (keys : List Nat) (a : SchedulerActor)
    (pp : List (Nat × TimerEntry)), Steps env ok ⟨a, pp, hs, fs⟩
      ⟨{ a with timers := (popExpired a.timers keys).2 }, pp ++ (popExpired a.timers keys).1, hs, fs⟩
  | [], a, pp => by
    simp only [popExpired, append_nil]
    exact .refl
  | key :: keys, a, pp => by
    simp only [popExpired]
    cases hg : a.timers.get key with
    | none => exact popExpired_steps hx keys a pp
    | some entry =>
      refine (Steps.one hx (.expire ⟨a, pp, hs, fs⟩ key entry hg)).trans ?_
      have h := popExpired_steps hx keys { a with timers := a.timers.tryRemove key }
        (pp ++ [(key, entry)])
      simpa only [append_assoc, singleton_append] using h

theorem handleExpiredBatch_steps (hx : ok .expire) (keys : List Nat)
    (hm : MutatesOnly env ok a (.expired keys)) :
    Steps env ok (.idle a) (.idle (a.handleExpiredBatch env keys)) := by
  unfold handleExpiredBatch
  dsimp only
  split
  · exact .refl
  · refine (popExpired_steps hx (keys.take a.config.dueBatchSize) a []).trans ?_
    refine (Steps.one hp (.silent _ a.configRevision (wrappingSucc a.batchSequence) a.ticks
      a.jobsIssued a.panicked)).trans ?_
    exact handleTimers_steps hp hd _ _ _ hm

/-! ## 4. Before the wait (scheduling.rs, execution.rs) -/

theorem restoreLoop_steps (jobId : JobId) (limit : Nat) :
    ∀ (fuel : Nat) (resumeFrom : Option DateTime) (a : SchedulerActor),
      Steps env ok ⟨a, pp, hs, fs⟩ ⟨(restoreLoop env jobId limit fuel resumeFrom a).2, pp, hs, fs⟩
  | 0, _, _ => .refl
  | fuel + 1, resumeFrom, a => by
    simp only [restoreLoop]
    split
    · split
      · exact .refl
      · rename_i job hj
        split
        · exact .refl
        · rename_i p rest hb
          refine (Steps.one hd (.unblock ⟨a, pp, hs, fs⟩ jobId job p rest hj hb)).trans ?_
          split
          · refine Steps.trans ?_ (restoreLoop_steps jobId limit fuel _ _)
            exact Steps.trans (.one hd (.queue _ p hs rfl)) (emit_steps hp _ trivial)
          · exact Steps.trans (.one hd (.drop _ p hs rfl))
              (restoreLoop_steps jobId limit fuel _ _)
    · exact .refl

omit hd in
theorem resumeJob_steps (jobId : JobId) (resumeFrom : Option DateTime) :
    Steps env ok ⟨a, pp, hs, fs⟩ ⟨a.resumeJob env jobId resumeFrom, pp, hs, fs⟩ := by
  unfold resumeJob
  split
  · exact .refl
  · split
    · split
      · exact .refl
      · split
        · exact .one hp (.scheduleNormal _ jobId _ .normal (.inl rfl))
        · exact .refl
    · exact .refl

theorem restoreJob_steps (jobId : JobId) :
    Steps env ok ⟨a, pp, hs, fs⟩ ⟨a.restoreJob env jobId, pp, hs, fs⟩ := by
  unfold restoreJob
  split
  · exact .refl
  · exact (restoreLoop_steps hp hd jobId _ _ _ a).trans (resumeJob_steps hp jobId _)

theorem restoreJobs_steps :
    ∀ (jobIds : List JobId) (a : SchedulerActor),
      Steps env ok ⟨a, pp, hs, fs⟩ ⟨a.restoreJobs env jobIds, pp, hs, fs⟩
  | [], _ => .refl
  | jobId :: rest, _ => (restoreJob_steps hp hd jobId).trans (restoreJobs_steps rest _)

theorem restoreBlocked_steps :
    Steps env ok ⟨a, pp, hs, fs⟩ ⟨a.restoreBlocked env, pp, hs, fs⟩ := by
  unfold restoreBlocked
  split
  · exact .refl
  · exact restoreJobs_steps hp hd _ a

end

theorem dispatchLoop_steps (hp : ok .plain) (hst : ok .start) : ∀ (fuel : Nat) (a : SchedulerActor),
    Steps env ok ⟨a, pp, hs, fs⟩ ⟨dispatchLoop env fuel a, pp, hs, fs⟩
  | 0, _ => .refl
  | fuel + 1, a => by
    simp only [dispatchLoop]
    split
    · rename_i hc
      cases ho : a.ready.popDispatchable a.canRun with
      | mk selected ready =>
        cases selected with
        | none =>
          have h := (popDispatchable_none (congrArg Prod.fst ho)).2.1
          rw [ho] at h
          exact shrink_steps hp ready fun r p hg => by rw [← h]; exact hg
        | some p =>
          obtain ⟨hcan, hget, -, hrem, -⟩ :=
            popDispatchable_some (congrArg Prod.fst ho)
          rw [ho] at hrem
          exact (Steps.one hst (.start ⟨a, pp, hs, fs⟩ p ready hget hrem hcan hc.1)).trans
            (dispatchLoop_steps hp hst fuel _)
    · exact .refl

/-- **What the loop does before it waits.** -/
theorem settle_steps (hp : ok .plain) (hd : ok .work) (hst : ok .start) (a : SchedulerActor) :
    Steps env ok (.idle a) (.idle (a.settle env)) :=
  (restoreBlocked_steps hp hd).trans (dispatchLoop_steps hp hst _ _)

/-! ## 5. Results (execution.rs) -/

theorem handleOutcome_steps (hp : ok .plain) (task : SpawnedTask) (ho : ok (.outcome task.jobId))
    (elapsed : Duration) (outcome : CompletionOutcome)
    (hv : a.atVersion task.jobId task.version = true)
    (hm : OutcomeMutates a (task.completion elapsed outcome) → ok (.mutation task.jobId)) :
    Steps env ok ⟨a, [], hs, [task]⟩
      ⟨a.handleOutcome env (task.completion elapsed outcome), [], hs, []⟩ := by
  have hdone : ∀ {b}, Steps env ok ⟨a, [], hs, [task]⟩ ⟨b, [], hs, [task]⟩ →
      Steps env ok ⟨a, [], hs, [task]⟩ ⟨b, [], hs, []⟩ :=
    fun h => h.trans (.one hp (.forget _ task [] rfl))
  have hrule : ResultRule env a task elapsed outcome
      (fun b => Steps env ok ⟨a, [], hs, [task]⟩ ⟨b, [], hs, [task]⟩)
      fun b => Steps env ok ⟨a, [], hs, [task]⟩ ⟨b, [], hs, []⟩ := {
    emit := fun kind hk h => h.trans (emit_steps hp kind hk)
    tick := fun h => h.trans (tick_steps hp)
    panic := fun {b} h => h.trans
      (.one hp (.silent _ b.configRevision b.batchSequence b.ticks b.jobsIssued true))
    cancel := fun h => h.trans (.one hp (.cancel _ task.jobId task.version))
    succeed := fun _ _ h => h.trans (.one ho (.succeed _ task.jobId rfl))
    fail := fun error count h => h.trans (.one hp (.fail _ task.jobId error count))
    complete := fun now _ hj honce h =>
      hdone (h.trans (.one ho (.complete _ task.jobId now _ rfl hj honce)))
    disable := fun reason hmutates hj h =>
      hdone (h.trans (.one (hm hmutates) (.disable _ task.jobId _ reason hj)))
    delete := fun hmutates hj h =>
      hdone (h.trans (.one (hm hmutates) (.delete _ task.jobId _ true hj)))
    retry := fun runAt _ hjobs h => by
      refine h.trans (.one hp (.retry _ task [] runAt rfl ?_))
      unfold atVersion at hv ⊢
      rwa [hjobs]
    done := hdone }
  exact hrule.handleOutcome .refl

/-- **A result is handled.** -/
theorem completion_steps (hp : ok .plain) {task : SpawnedTask} (ho : ok (.outcome task.jobId))
    {elapsed : Duration} {outcome : CompletionOutcome} (ht : task ∈ a.tasks)
    (hpossible : task.possible (a.tokenCancelled task.runId) outcome = true)
    (hm : MutatesOnly env ok a (.completion task elapsed outcome)) :
    Steps env ok (.idle a) (.idle (a.handle env (.completion task elapsed outcome))) := by
  refine Steps.trans (.one hp (.finish (.idle a) task ht)) ?_
  rw [handle_completion env a ht hpossible]
  split
  · rename_i hcur
    refine handleOutcome_steps hp task ho elapsed outcome ?_ (hm hcur)
    obtain ⟨job, hj, hv⟩ := atVersion_iff.mp hcur
    exact atVersion_iff.mpr ⟨_, Table.get_modify_of_get hj _, hv⟩
  · exact .one hp (.forget _ task [] rfl)

/-! ## 6. Commands (management.rs) -/

theorem mem_mutates_of_revises {command : Command} {id : JobId} {patch : JobPatch}
    (h : (id, patch) ∈ command.revises env a) : id ∈ command.mutates env a := by
  cases command with
  | update =>
    simp only [Command.revises] at h
    split at h
    · cases mem_singleton.mp h
      exact mem_singleton_self _
    · cases h
  | reconcile =>
    simp only [Command.revises] at h
    split at h
    · obtain ⟨update, hu, he⟩ := mem_map.mp h
      cases he
      exact mem_append_left _ (mem_map_of_mem hu)
    · cases h
  | _ => cases h

/-- **A command is handled.** -/
theorem command_steps (hp : ok .plain) (hg : ok .configure) (command : Command)
    (hm : ∀ jobId ∈ command.mutates env a, ok (.mutation jobId))
    (hr : ∀ jobId ∈ command.mutates env a, ok (.revise jobId))
    (hi : ∀ install ∈ command.installs env a, ok (.install install.1 install.2)) :
    Steps env ok ⟨a, pp, hs, fs⟩ ⟨(a.handleCommand env command).2, pp, hs, fs⟩ := by
  have hrule : CommandRule env a command fun b => Steps env ok ⟨a, pp, hs, fs⟩ ⟨b, pp, hs, fs⟩ := {
    silent := fun {b} config configRevision ticks jobsIssued h hc => by
      have hsilent := h.trans (.one hp (.silent _ configRevision b.batchSequence ticks jobsIssued
        b.panicked))
      rcases hc with rfl | ⟨hvalid, -⟩
      · exact hsilent
      · exact hsilent.trans (.one hg (.configure _ config hvalid))
    announce := fun revision h => h.trans (emit_steps hp _ trivial)
    install := fun enabled trigger task options now firstRun hin hn hv _ h =>
      h.trans (.one (hi _ hin) (.install _ _ _ enabled trigger task options now firstRun hn hv))
    update := fun {b id job expectedVersion patch plan} hrev hplan hj h => by
      obtain ⟨job', hj', hv, hn, -⟩ := planJobUpdate_ok env hplan
      rw [hj] at hj'
      cases hj'
      refine h.trans ((tick_steps hp).trans (.one (hr id (mem_mutates_of_revises hrev))
        (.update _ id job patch plan hj (checkedSucc_eq_some hn) ⟨b, rfl, rfl, ?_⟩)))
      rw [hv]
      exact hplan
    drop := fun {b id job} _ _ _ h =>
      h.trans ((shrink_steps hp (b.ready.removeJob id).2 fun _ _ => get_retain_some).trans
        (.one hp (.clearRetries _ id)))
    enable := fun {b id job} next hmem _ hj hs _ h =>
      h.trans (.one (hr id hmem) (.enable _ id job (b.now env) next hj hs))
    disable := fun {b id job} reason hmem hj _ h =>
      h.trans (.one (hm id hmem) (.disable _ id job reason hj))
    delete := fun {b id job} hmem hj h => h.trans (.one (hm id hmem) (.delete _ id job true hj)) }
  exact hrule.handleCommand .refl

/-! ## 7. Messages -/

theorem batchDisablesOnly_of_all (hm : ∀ jobId, ok (.mutation jobId)) (batchId : Nat) :
    ∀ (entries : List (Nat × TimerEntry)) (a : SchedulerActor),
      BatchDisablesOnly env ok batchId a entries
  | [], _ => trivial
  | _ :: rest, _ => ⟨fun _ => hm _, batchDisablesOnly_of_all hm batchId rest _⟩

/-- The Jobs a message may install. -/
def Message.installs (env : Env) (a : SchedulerActor) : Message → List (JobId × Nat)
  | .command cmd => cmd.installs env a
  | _ => []

theorem reanchorTimers_steps (hp : ok .plain) :
    Steps env ok ⟨a, pp, hs, fs⟩ ⟨a.reanchorTimers, pp, hs, fs⟩ := by
  unfold reanchorTimers
  split
  · exact .refl
  · exact .one hp (.silent _ a.configRevision a.batchSequence a.ticks a.jobsIssued true)

/-- What the actor does by itself: everything but a command. -/
def Message.internal : Message → Bool
  | .command _ => false
  | _ => true

theorem mutatesOnly_of_all (hm : ∀ jobId, ok (.mutation jobId)) (message : Message) :
    MutatesOnly env ok a message := by
  cases message with
  | completion => exact fun _ _ => hm _
  | expired => exact batchDisablesOnly_of_all hm _ _ _
  | command | joinError | maintenance | rehash => exact trivial

theorem MutatesOnly.mono {ok' : StepKind → Prop}
    (h : ∀ jobId, ok (.mutation jobId) → ok' (.mutation jobId)) {message : Message}
    (hm : MutatesOnly env ok a message) : MutatesOnly env ok' a message := by
  have hbatch : ∀ (batchId : Nat) (entries : List (Nat × TimerEntry)) (a : SchedulerActor),
      BatchDisablesOnly env ok batchId a entries → BatchDisablesOnly env ok' batchId a entries := by
    intro batchId entries
    induction entries with
    | nil => exact fun _ _ => trivial
    | cons expired rest ih => exact fun a hm => ⟨fun hd => h _ (hm.1 hd), ih _ hm.2⟩
  cases message with
  | completion => exact fun hv ho => h _ (hm hv ho)
  | expired => exact hbatch _ _ _ hm
  | command | joinError | maintenance | rehash => exact trivial

/-- **What the actor does by itself** revises and installs nothing. -/
theorem internal_steps {message : Message} (hp : ok .plain)
    (hx : ∀ keys, message = .expired keys → ok .expire ∧ ok .work)
    (ho : ∀ jobId, ok (.outcome jobId)) (hm : MutatesOnly env ok a message)
    (hi : message.internal = true) : Steps env ok (.idle a) (.idle (a.handle env message)) := by
  cases message with
  | command => cases hi
  | completion task elapsed outcome =>
    by_cases h : task ∈ a.tasks ∧ task.possible (a.tokenCancelled task.runId) outcome
    · exact completion_steps hp (ho _) h.1 h.2 hm
    · rw [handle, if_neg h]
      exact .refl
  | joinError task => exact .one hp (.lose _ task)
  | expired keys => exact handleExpiredBatch_steps hp (hx keys rfl).2 (hx keys rfl).1 keys hm
  | maintenance => exact reanchorTimers_steps hp
  | rehash entries =>
    rw [handle]
    split
    · rename_i h
      exact .one hp (.rehash _ ⟨entries, ((h.map Prod.fst).nodup_iff).mp a.jobs.nodup⟩ h)
    · exact .refl

/-- The kinds of steps a handler takes. -/
structure Handling (env : Env) (a : SchedulerActor) (message : Message) (kind : StepKind) : Prop where
  start : kind ≠ .start
  install : ∀ jobId generation, kind = .install jobId generation →
    (jobId, generation) ∈ message.installs env a
  timer : kind = .expire ∨ kind = .work → ∃ keys, message = .expired keys

/-- **Any message is handled.** -/
theorem handle_steps (message : Message) (hok : ∀ kind, Handling env a message kind → ok kind) :
    Steps env ok (.idle a) (.idle (a.handle env message)) := by
  have hp : ok .plain := hok _ ⟨by simp, by simp, by simp⟩
  have hm : ∀ jobId, ok (.mutation jobId) := fun _ => hok _ ⟨by simp, by simp, by simp⟩
  cases hint : message.internal with
  | true =>
    refine internal_steps hp (fun keys he => ?_) (fun _ => hok _ ⟨by simp, by simp, by simp⟩)
      (mutatesOnly_of_all hm message) hint
    exact ⟨hok _ ⟨by simp, by simp, fun _ => ⟨keys, he⟩⟩, hok _ ⟨by simp, by simp, fun _ => ⟨keys, he⟩⟩⟩
  | false =>
    cases message with
    | command command =>
      refine command_steps hp (hok _ ⟨by simp, by simp, by simp⟩) command (fun jobId _ => hm jobId)
        (fun _ _ => hok _ ⟨by simp, by simp, by simp⟩) fun install hi => hok _ ⟨by simp, ?_, by simp⟩
      rintro _ _ ⟨⟩
      exact hi
    | _ => cases hint

end Handlers

/-- An invariant of the handlers and of what comes before the wait is one of whole turns. -/
theorem turn_keeps {env : Env} (Inv : SchedulerActor → Prop) {a : SchedulerActor} {message : Message}
    (hhandle : Inv (a.handle env message)) (hsettle : ∀ a, Inv a → Inv (a.settle env))
    (hi : Inv a) : Inv (a.turn env message) := by
  unfold turn
  split
  · exact hi
  · dsimp only
    split
    · exact hhandle
    · exact hsettle _ hhandle

/-- **A turn is a sequence of steps.** -/
theorem turn_steps {env : Env} {ok : StepKind → Prop} {a : SchedulerActor} (message : Message)
    (hok : ∀ kind, Handling env a message kind → ok kind) (hp : ok .plain) (hd : ok .work)
    (hst : ok .start) : Steps env ok (.idle a) (.idle (a.turn env message)) :=
  turn_keeps (fun b => Steps env ok (.idle a) (.idle b)) (handle_steps message hok)
    (fun b hb => hb.trans (settle_steps hp hd hst b)) .refl

/-- **The actor refines the machine**: from any state on, a whole run is a sequence of steps, and
    between two turns nothing is left in a handler's hands. -/
theorem run_refines_machine (env : Env) (a : SchedulerActor) (messages : List Message) :
    Steps env (fun _ => True) (.idle a) (.idle (run (turn env) a messages)) := by
  induction messages generalizing a with
  | nil => exact .refl
  | cons message rest ih =>
    have hturn : Steps env (fun _ => True) (.idle a) (.idle (a.turn env message)) :=
      turn_steps message (fun _ _ => trivial) trivial trivial trivial
    exact hturn.trans (ih (a.turn env message))

end Smalux.Scheduler
