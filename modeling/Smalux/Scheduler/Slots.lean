/-
  Subject:   The counters of running executions.

  The actor counts running executions twice, in total and per Job, beside the map of them.

  * `SlotsCounted` -- both counters say what the map holds;
  * `SlotChange` -- what a step can do to them: nothing, start one, end one, or install a Job that
    starts counting at zero;
  * `InstallGuard` -- no Job is installed under an id that still has running executions;
  * **`slots_counted_while_guarded`** -- in every run whose installs meet it the counters are right
    in every state, and no execution starts above its Job's limit.
-/
import Smalux.Scheduler.RunIds

namespace Smalux.Scheduler

open Lib SchedulerActor Table List Option

variable {env : Env} {a a' : SchedulerActor} {p : PendingExecution}

/-! ## 1. What a step does to the counters -/

/-- How many executions of the Job are running. -/
def SchedulerActor.runningOf (a : SchedulerActor) (jobId : JobId) : Nat :=
  a.running.count fun e => decide (e.jobId = jobId)

/-- The counters agree with the map of running executions. -/
structure SlotsCounted (a : SchedulerActor) : Prop where
  total : a.totalRunning = a.running.len
  perJob : ∀ jobId job, a.jobs.get jobId = some job → job.runningCount = a.runningOf jobId

/-- Nothing about the slots changes, except that Jobs may go. -/
structure SlotsKept (a a' : SchedulerActor) : Prop where
  total : a'.totalRunning = a.totalRunning
  len : a'.running.len = a.running.len
  count : ∀ jobId, a'.runningOf jobId = a.runningOf jobId
  jobs : ∀ jobId job', a'.jobs.get jobId = some job' →
    ∃ job, a.jobs.get jobId = some job ∧ job'.runningCount = job.runningCount

namespace SlotsKept

variable {jobId : JobId}

theorem refl (a : SchedulerActor) : SlotsKept a a :=
  ⟨rfl, rfl, fun _ => rfl, fun _ job hj => ⟨job, hj, rfl⟩⟩

theorem trans {a'' : SchedulerActor} (h : SlotsKept a a') (h' : SlotsKept a' a'') :
    SlotsKept a a'' := by
  refine ⟨h'.total.trans h.total, h'.len.trans h.len,
    fun jobId => (h'.count jobId).trans (h.count jobId), fun jobId job'' hj => ?_⟩
  obtain ⟨job', hj', he'⟩ := h'.jobs jobId job'' hj
  obtain ⟨job, hj, he⟩ := h.jobs jobId job' hj'
  exact ⟨job, hj, he'.trans he⟩

theorem modifyJob {f : JobEntry → JobEntry}
    (hf : ∀ job, a.jobs.get jobId = some job → (f job).runningCount = job.runningCount) :
    SlotsKept a (a.modifyJob jobId f) := by
  refine { refl a with jobs := fun id job' hj => ?_ }
  have hj : (a.jobs.modify jobId f).get id = some job' := hj
  rw [get_modify] at hj
  split at hj
  · rename_i hid
    obtain ⟨job, hget, rfl⟩ := map_eq_some_iff.mp hj
    exact ⟨job, hget, hf job (hid ▸ hget)⟩
  · exact ⟨job', hj, rfl⟩

theorem cancelJobVersion (jobId : JobId) (version : Nat) :
    SlotsKept a (a.cancelJobVersion jobId version) := by
  have hsum : ∀ f : RunningExecution → Nat,
      (∀ e : RunningExecution, ∀ c, f { e with cancelled := c } = f e) →
      (a.cancelJobVersion jobId version).running.sumBy f = a.running.sumBy f := by
    intro f hf
    refine sumBy_mapVals fun e => ?_
    split
    · exact hf e true
    · rfl
  refine { refl a with len := ?_, count := fun id => ?_ }
  · rw [len_eq_sumBy, len_eq_sumBy]
    exact hsum _ fun _ _ => rfl
  · unfold runningOf
    rw [count_eq_sumBy, count_eq_sumBy]
    exact hsum _ fun _ _ => rfl

theorem touch (h : Touch env jobId a a') : SlotsKept a a' := by
  cases h with
  | tick | emit | removeKey | clearRetries | setReady => exact { refl a with }
  | cancel version => exact cancelJobVersion jobId version
  | modifyJob f hf => exact modifyJob fun job hj => (hf job hj).1
  | removeJob =>
    refine { refl a with jobs := fun id job hj => ?_ }
    rw [get_remove] at hj
    split at hj
    · cases hj
    · exact ⟨job, hj, rfl⟩
  | scheduleNormal runAt =>
    unfold SchedulerActor.scheduleNormal
    split
    · exact refl a
    · rename_i job hj
      have h₁ : SlotsKept a (a.modifyJob jobId
          (scheduleEntry (a.timers.removeKey job.normalTimerKey).nextKey runAt)) :=
        modifyJob fun _ _ => rfl
      exact { h₁ with }

theorem touches (h : Touches env jobId a a') : SlotsKept a a' := by
  induction h with
  | refl => exact refl a
  | tail _ ht ih => exact ih.trans (touch ht)

end SlotsKept

/-- **What a step can do to the slots.** -/
inductive SlotChange (env : Env) (kind : StepKind) (a a' : SchedulerActor) : Prop where
  | kept (h : SlotsKept a a')
  | started (p : PendingExecution) (job : JobEntry) (hk : kind = .start)
      (hp : a.ready.pending.get p.runId = some p) (hj : a.jobs.get p.jobId = some job)
      (ht : a'.totalRunning = a.totalRunning + 1)
      (hr : a'.running = a.running.insert p.runId ⟨p.jobId, p.version, false⟩)
      (hjobs : a'.jobs = a.jobs.modify p.jobId (startEntry (a.now env) p.scheduledAt))
  | finished (task : SpawnedTask) (hm : task ∈ a.tasks)
      (ht : a'.totalRunning = a.totalRunning - 1) (hr : a'.running = a.running.remove task.runId)
      (hjobs : a'.jobs = a.jobs.modify task.jobId (releaseEntry (a.now env)))
  | installed (jobId : JobId) (generation : Nat) (entry : JobEntry)
      (hk : kind = .install jobId generation) (hz : entry.runningCount = 0)
      (h : SlotsKept { a with jobs := a.jobs.insert jobId entry } a')

theorem slotChange_of_step {kind : StepKind} {m m' : Machine} (hstep : Step env kind m m') :
    SlotChange env kind m.actor m'.actor := by
  have hr := SlotsKept.refl m.actor
  cases hstep with
  | silent | configure | emit | expire | ignore | fireRetry | clearRetries | draw | queue | drop
  | shrinkReady | lose | retry | forget => exact .kept { hr with }
  | cancel _ jobId version => exact .kept (.cancelJobVersion jobId version)
  | fire | block | dropReplaceable | unblock | succeed | fail | complete =>
    exact .kept (.modifyJob fun _ _ => rfl)
  | scheduleNormal _ jobId runAt kind hk => exact .kept (.touch (.scheduleNormal runAt kind hk))
  | start _ p ready hp =>
    unfold spawnExecution
    split
    · exact .kept { hr with }
    · rename_i job hj
      split
      · exact .kept { hr with }
      · exact .started p job rfl hp hj rfl rfl rfl
  | finish _ task ht => exact .finished task ht rfl rfl rfl
  | rehash _ jobs hsame =>
    refine .kept { hr with jobs := fun id job hj => ⟨job, ?_, rfl⟩ }
    rw [← hsame.get_eq id]
    exact hj
  | disable _ jobId job reason _ => exact .kept (.touches (.commitDisable _ jobId job _ reason))
  | update _ jobId job patch plan hj => exact .kept (.touches (.commitUpdate patch plan hj))
  | enable _ jobId job now next _ => exact .kept (.touches (.commitEnable _ jobId _ now next))
  | delete _ jobId job cancelRunning _ =>
    exact .kept (.touches (.commitDelete _ jobId job cancelRunning))
  | install _ jobId generation enabled trigger task options now firstRun =>
    exact .installed jobId generation _ rfl rfl (.touches (.installJob _ jobId _ enabled firstRun))

/-! ## 2. The counters stay right -/

namespace SlotsCounted

variable {kind : StepKind} {m : Machine}

theorem kept (h : SlotsCounted a) (hk : SlotsKept a a') : SlotsCounted a' := by
  refine ⟨by rw [hk.total, h.total, hk.len], fun jobId job' hj' => ?_⟩
  obtain ⟨job, hj, he⟩ := hk.jobs jobId job' hj'
  rw [he, h.perJob jobId job hj, hk.count]

/-- One more execution runs. -/
theorem started (h : SlotsCounted a) (hfree : a.running.get p.runId = none)
    (ht : a'.totalRunning = a.totalRunning + 1)
    (hr : a'.running = a.running.insert p.runId ⟨p.jobId, p.version, false⟩)
    (hjobs : a'.jobs = a.jobs.modify p.jobId (startEntry (a.now env) p.scheduledAt)) :
    SlotsCounted a' := by
  have hcount : ∀ jobId, a'.runningOf jobId = a.runningOf jobId + if p.jobId = jobId then 1 else 0 := by
    intro jobId
    unfold runningOf
    rw [hr, count_eq_sumBy, count_eq_sumBy, sumBy_insert_new hfree]
    simp
  refine ⟨?_, fun jobId job' hj' => ?_⟩
  · rw [ht, h.total, hr, len_eq_sumBy, len_eq_sumBy, sumBy_insert_new hfree]
  · rw [hcount]
    rw [hjobs, get_modify] at hj'
    split at hj'
    · rename_i hid
      obtain ⟨job, hj, rfl⟩ := map_eq_some_iff.mp hj'
      rw [if_pos hid.symm, ← h.perJob jobId job hj]
      rfl
    · rename_i hid
      rw [if_neg (Ne.symm hid)]
      exact h.perJob jobId job' hj'

/-- One execution less runs. -/
theorem finished (h : SlotsCounted a) {task : SpawnedTask}
    (hrun : (a.running.get task.runId).map (·.jobId) = some task.jobId)
    (ht : a'.totalRunning = a.totalRunning - 1) (hr : a'.running = a.running.remove task.runId)
    (hjobs : a'.jobs = a.jobs.modify task.jobId (releaseEntry (a.now env))) : SlotsCounted a' := by
  obtain ⟨e, he, hid⟩ := map_eq_some_iff.mp hrun
  have hcount : ∀ jobId, a'.runningOf jobId + (if task.jobId = jobId then 1 else 0) =
      a.runningOf jobId := by
    intro jobId
    have hsum := sumBy_remove he fun e => if decide (e.jobId = jobId) then 1 else 0
    unfold runningOf
    rw [hr, count_eq_sumBy, count_eq_sumBy, ← hsum, ← hid]
    simp
  refine ⟨?_, fun jobId job' hj' => ?_⟩
  · have hsum := sumBy_remove he fun _ => 1
    rw [ht, h.total, hr, len_eq_sumBy, len_eq_sumBy]
    omega
  · have hc := hcount jobId
    rw [hjobs, get_modify] at hj'
    split at hj'
    · rename_i heq
      obtain ⟨job, hj, rfl⟩ := map_eq_some_iff.mp hj'
      have hj := h.perJob jobId job hj
      rw [if_pos heq.symm] at hc
      show job.runningCount - 1 = a'.runningOf jobId
      omega
    · rename_i heq
      have hj := h.perJob jobId job' hj'
      rw [if_neg (Ne.symm heq)] at hc
      omega

/-- A Job installed while none of its executions run counts from zero. -/
theorem installed (h : SlotsCounted a) {jobId : JobId} {entry : JobEntry}
    (hz : entry.runningCount = 0) (hfree : a.runningOf jobId = 0) :
    SlotsCounted { a with jobs := a.jobs.insert jobId entry } := by
  refine ⟨h.total, fun id job hj => ?_⟩
  rw [get_insert] at hj
  split at hj
  · rename_i hid
    cases hj
    rw [hz, hid]
    exact hfree.symm
  · exact h.perJob id job hj

/-- **The counters stay right** through every step, an install with running executions apart. -/
theorem change (h : SlotsCounted m.actor) (hruns : RunsOnce env m)
    (hc : SlotChange env kind m.actor a')
    (hi : ∀ jobId generation, kind = .install jobId generation → m.actor.runningOf jobId = 0) :
    SlotsCounted a' := by
  cases hc with
  | kept hk => exact h.kept hk
  | started p job hk hp hj ht hr hjobs =>
    exact h.started (hruns.not_running_of_queued hp) ht hr hjobs
  | finished task hm ht hr hjobs => exact h.finished (hruns.tasks task hm) ht hr hjobs
  | installed jobId generation entry hk hz hkept =>
    exact (h.installed hz (hi jobId generation hk)).kept hkept

end SlotsCounted

/-- Unless one starts, no Job gets more running executions. -/
theorem SlotChange.runningOf_le {kind : StepKind} (h : SlotChange env kind a a')
    (hs : kind ≠ .start) (jobId : JobId) : a'.runningOf jobId ≤ a.runningOf jobId := by
  cases h with
  | kept hk | installed _ _ _ _ _ hk => exact Nat.le_of_eq (hk.count jobId)
  | started _ _ hk => exact absurd hk hs
  | finished task _ _ hr _ =>
    unfold runningOf
    rw [hr, count_eq_sumBy, count_eq_sumBy]
    exact sumBy_remove_le _ _ _

/-! ## 3. What `dispatch_ready` starts -/

/-- The executions the loop of `dispatch_ready` starts, each with the state it is started in. -/
def dispatchStarts (env : Env) : Nat → SchedulerActor → List (SchedulerActor × PendingExecution)
  | 0, _ => []
  | fuel + 1, a =>
    if a.totalRunning < a.config.globalConcurrency ∧ 0 < a.ready.len then
      match a.ready.popDispatchable a.canRun with
      | (none, _) => []
      | (some pending, ready) =>
        ({ a with ready := ready }, pending) ::
          dispatchStarts env fuel (({ a with ready := ready }).spawnExecution env pending)
    else []

/-- What a turn starts. -/
def turnStarts (env : Env) (a : SchedulerActor) (message : Message) :
    List (SchedulerActor × PendingExecution) :=
  if a.panicked ∨ (a.handle env message).panicked then []
  else
    let a := (a.handle env message).restoreBlocked env
    dispatchStarts env a.ready.len a

theorem canRun_iff :
    a.canRun p = true ↔ ∃ job, a.jobs.get p.jobId = some job ∧ job.version = p.version ∧
      job.state = .enabled ∧ job.runningCount < a.concurrencyLimit job := by
  unfold canRun
  cases a.jobs.get p.jobId with
  | none => simp
  | some => simp [and_assoc]

/-- The Job of the execution has fewer executions running than it may have. -/
def BelowLimit (s : SchedulerActor × PendingExecution) : Prop :=
  ∃ job, s.1.jobs.get s.2.jobId = some job ∧ s.1.runningOf s.2.jobId < s.1.concurrencyLimit job

/-- No execution of the turn starts at or above its Job's limit. -/
def StartsBelowLimit (env : Env) (a : SchedulerActor) (message : Message) : Prop :=
  ∀ s ∈ turnStarts env a message, BelowLimit s

/-- What holds of the slots between two turns. -/
structure SlotsInv (env : Env) (a : SchedulerActor) : Prop where
  runs : RunsOnce env (.idle a)
  slots : SlotsCounted a

/-- The loop keeps the counters, so what `can_run` compares is the number that runs. -/
theorem dispatchStarts_below : ∀ (fuel : Nat) (a : SchedulerActor), SlotsInv env a →
    ∀ s ∈ dispatchStarts env fuel a, BelowLimit s
  | 0, _, _, _, hm => absurd hm not_mem_nil
  | fuel + 1, a, h, s, hm => by
    unfold dispatchStarts at hm
    split at hm
    · rename_i hc
      cases hpop : a.ready.popDispatchable a.canRun with
      | mk o ready =>
        rw [hpop] at hm
        cases o with
        | none => cases hm
        | some p =>
          obtain ⟨hcan, hp, -, hready, -⟩ :=
            ReadyQueue.popDispatchable_some (congrArg Prod.fst hpop)
          rw [hpop] at hready
          rcases mem_cons.mp hm with rfl | hm
          · obtain ⟨job, hj, -, -, hlt⟩ := canRun_iff.mp hcan
            refine ⟨job, hj, ?_⟩
            rw [h.slots.perJob p.jobId job hj] at hlt
            exact hlt
          · have hstep : Step env .start (.idle a)
                (.idle (({ a with ready := ready }).spawnExecution env p)) :=
              .start _ p ready hp hready hcan hc.1
            have hslots := h.slots.change h.runs (slotChange_of_step hstep) (by simp)
            exact dispatchStarts_below fuel _ ⟨h.runs.step hstep, hslots⟩ s hm
    · cases hm

/-! ## 4. Runs -/

/-- No Job is installed under an id that still has running executions. -/
def InstallGuard (env : Env) (a : SchedulerActor) (message : Message) : Prop :=
  ∀ install ∈ message.installs env a, a.runningOf install.1 = 0
  deriving Decidable

namespace SlotsInv

/-- A handler starts nothing, so an id without running executions stays without. -/
theorem handle (h : SlotsInv env a) (message : Message) (hg : InstallGuard env a message) :
    SlotsInv env (a.handle env message) := by
  have hsteps : Steps env
      (fun kind => kind ≠ .start ∧ ∀ jobId generation, kind = .install jobId generation →
        a.runningOf jobId = 0) (.idle a) (.idle (a.handle env message)) :=
    handle_steps message fun _ hk => ⟨hk.start, fun _ _ he => hg _ (hk.install _ _ he)⟩
  have hkeep := hsteps.keep
    (fun m => RunsOnce env m ∧ SlotsCounted m.actor ∧
      ∀ jobId, m.actor.runningOf jobId ≤ a.runningOf jobId)
    (fun kind m m' hok hstep hi => ?_) ⟨h.runs, h.slots, fun _ => Nat.le_refl _⟩
  · exact ⟨hkeep.1, hkeep.2.1⟩
  · obtain ⟨hruns, hslots, hle⟩ := hi
    have hchange := slotChange_of_step hstep
    refine ⟨hruns.step hstep, hslots.change hruns hchange fun jobId generation he => ?_,
      fun jobId => ?_⟩
    · have hzero := hok.2 jobId generation he
      have := hle jobId
      omega
    · have := hchange.runningOf_le hok.1 jobId
      have := hle jobId
      omega

/-- Nothing is installed before the wait. -/
theorem settled (h : SlotsInv env a)
    (hsteps : Steps env (fun kind => ∀ jobId generation, kind ≠ .install jobId generation)
      (.idle a) (.idle a')) : SlotsInv env a' := by
  have hkeep := hsteps.keep (fun m => RunsOnce env m ∧ SlotsCounted m.actor)
    (fun kind m m' hok hstep hi => ?_) ⟨h.runs, h.slots⟩
  · exact ⟨hkeep.1, hkeep.2⟩
  · exact ⟨hi.1.step hstep, hi.2.change hi.1 (slotChange_of_step hstep)
      fun jobId generation he => absurd he (hok jobId generation)⟩

theorem turn (h : SlotsInv env a) (message : Message) (hg : InstallGuard env a message) :
    SlotsInv env (a.turn env message) :=
  turn_keeps (SlotsInv env) (h.handle message hg)
    (fun a ha => ha.settled (settle_steps (by simp) (by simp) (by simp) a)) h

theorem startsBelow (h : SlotsInv env a) (message : Message) (hg : InstallGuard env a message) :
    StartsBelowLimit env a message := by
  intro s hs
  unfold turnStarts at hs
  split at hs
  · cases hs
  · refine dispatchStarts_below _ _ ((h.handle message hg).settled ?_) s hs
    exact restoreBlocked_steps (by simp) (by simp)

theorem initial (config : SchedulerConfig) : SlotsInv env (start env config) where
  runs := .initial config
  slots := ⟨rfl, fun _ _ hj => by cases hj⟩

end SlotsInv

/-- **The counters are right**: in every run in which no Job is installed under an id that still
    has running executions, both counters agree with the running executions in every state, and
    `dispatch_ready` starts no execution of a Job that has reached its limit. -/
theorem slots_counted_while_guarded (env : Env) (config : SchedulerConfig) (messages : List Message)
    (h : Along (turn env) (InstallGuard env) (start env config) messages) :
    Throughout (turn env) SlotsCounted (start env config) messages ∧
      Along (turn env) (StartsBelowLimit env) (start env config) messages := by
  have hstep : ∀ a message, SlotsInv env a → InstallGuard env a message →
      SlotsInv env (a.turn env message) := fun a message hi hg => hi.turn message hg
  constructor
  · exact throughout_of_invariant hstep (fun a hi => hi.slots) (.initial config) h
  · exact along_of_invariant hstep (fun a message hi hg => hi.startsBelow message hg)
      (.initial config) h

section Reinstall

def poll : TaskBinding := ⟨⟨"poll", .action, "disk"⟩, .cooperative⟩

def everySecond : Trigger := ⟨.interval (10 ^ 9) none, .fireOnce, none⟩

def twoSlots : SchedulerConfig := { globalConcurrency := Nat.toPNat' 2 }

def pollTask (runId : RunId) : SpawnedTask := ⟨1, 1, runId, 1, 0, poll.inner, none, .cooperative⟩

/-- A Job is deleted while its execution runs, the execution ends, and the Job is installed again. -/
def reinstalledLate : List Message :=
  [.command (.add (some 1) 1 true everySecond poll {}), .expired [0], .command (.delete 1 1),
   .completion (pollTask 0) 0 .cancelled, .command (.add (some 1) 1 true everySecond poll {}),
   .expired [2]]

/-- The same, but the Job is installed again before its execution has ended. -/
def reinstalledEarly : List Message :=
  [.command (.add (some 1) 1 true everySecond poll {}), .expired [0], .command (.delete 1 1),
   .command (.add (some 1) 1 true everySecond poll {})]

theorem slots_counted_late :
    Along (turn .still) (InstallGuard .still) (start .still twoSlots) reinstalledLate ∧
      (Throughout (turn .still) SlotsCounted (start .still twoSlots) reinstalledLate ∧
        Along (turn .still) (StartsBelowLimit .still) (start .still twoSlots) reinstalledLate) := by
  have h : Along (turn .still) (InstallGuard .still) (start .still twoSlots) reinstalledLate := by
    decide +kernel
  exact ⟨h, slots_counted_while_guarded .still twoSlots reinstalledLate h⟩

/-- **A second execution above the limit.** The new Job counts no running execution although one
    is running, and its first timer starts another one, with a limit of one. -/
theorem reinstalled_job_overruns_limit : ¬ SlotsCounted (after .still twoSlots reinstalledEarly) ∧
      ¬ StartsBelowLimit .still (after .still twoSlots reinstalledEarly) (.expired [2]) := by
  constructor
  · intro h
    have hjob : ((after .still twoSlots reinstalledEarly).jobs.get 1).map (·.runningCount) =
        some 0 := by decide +kernel
    have hone : (after .still twoSlots reinstalledEarly).runningOf 1 = 1 := by decide +kernel
    obtain ⟨job, hj, hz⟩ := map_eq_some_iff.mp hjob
    have := h.perJob 1 job hj
    omega
  · intro h
    have hstart : (turnStarts .still (after .still twoSlots reinstalledEarly) (.expired [2])).map
        (fun s => (s.2.jobId, s.1.runningOf s.2.jobId,
          (s.1.jobs.get s.2.jobId).map s.1.concurrencyLimit)) = [(1, 1, some 1)] := by
      decide +kernel
    obtain ⟨s, hs⟩ : ∃ s, turnStarts .still (after .still twoSlots reinstalledEarly) (.expired [2]) =
        [s] := length_eq_one_iff.mp (by simpa using congrArg List.length hstart)
    obtain ⟨job, hj, hlt⟩ := h s (by rw [hs]; exact mem_singleton_self s)
    rw [hs, map_singleton, hj] at hstart
    simp only [List.cons.injEq, Prod.mk.injEq, map_some, Option.some.injEq, and_true] at hstart
    omega

end Reinstall

end Smalux.Scheduler
