/-
  Subject:   Every logical execution is in one place.

  A run id is drawn once and then travels: queue, held back, running, retry timer, queue again.
  What is counted here is how many places hold it, a handler's local variables included.

  * `Machine.places` -- the number of places that hold a run;
  * `FewerRuns` -- what most operations of the actor do: they add a run to no place;
  * **`RunsOnce.step`** -- no step makes a second copy of a run, and only `draw` brings one in;
  * **`run_in_one_place`** -- whole runs.
-/
import Smalux.Scheduler.Simulation

namespace Smalux.Scheduler

open Lib SchedulerActor Table List Option DelayQueue Nat

/-! ## 1. Places -/

/-- The entry is a retry timer of the run. -/
def TimerEntry.retries (entry : TimerEntry) (runId : RunId) : Bool :=
  match entry.kind with
  | .retry r _ _ => decide (r = runId)
  | _ => false

/-- How often a list of executions holds the run. -/
def copies (runs : List PendingExecution) (runId : RunId) : Nat :=
  runs.countP fun p => decide (p.runId = runId)

theorem copies_cons (p : PendingExecution) (runs : List PendingExecution) (runId : RunId) :
    copies (p :: runs) runId = copies runs runId + if p.runId = runId then 1 else 0 := by
  unfold copies
  rw [countP_cons]
  simp

theorem copies_map {g : PendingExecution → PendingExecution} (hg : ∀ p, (g p).runId = p.runId)
    (runs : List PendingExecution) (runId : RunId) :
    copies (runs.map g) runId = copies runs runId := by
  unfold copies
  rw [countP_map]
  refine countP_congr fun p _ => ?_
  simp [hg]

namespace SchedulerActor

def queuedRuns (a : SchedulerActor) (runId : RunId) : Nat :=
  a.ready.pending.holds runId

def blockedRuns (a : SchedulerActor) (runId : RunId) : Nat :=
  a.jobs.sumBy fun job => copies job.blocked runId

def timedRuns (a : SchedulerActor) (runId : RunId) : Nat :=
  a.timers.sumBy fun entry => if entry.retries runId then 1 else 0

def runningRuns (a : SchedulerActor) (runId : RunId) : Nat :=
  a.running.holds runId

end SchedulerActor

/-- How many places hold the run. -/
def Machine.places (m : Machine) (runId : RunId) : Nat :=
  m.actor.queuedRuns runId + m.actor.blockedRuns runId + m.actor.timedRuns runId +
    m.actor.runningRuns runId + m.popped.countP (fun e => e.2.retries runId) +
    copies m.held runId + m.finished.countP (fun task => decide (task.runId = runId))

/-! ## 2. Operations that add no run -/

/-- Every place of the actor holds at most what it held; what runs goes on running, for the Job it
    ran for. -/
structure FewerRuns (a a' : SchedulerActor) : Prop where
  queued : ∀ r, a'.queuedRuns r ≤ a.queuedRuns r
  blocked : ∀ r, a'.blockedRuns r ≤ a.blockedRuns r
  timed : ∀ r, a'.timedRuns r ≤ a.timedRuns r
  running : ∀ r, (a'.running.get r).map (·.jobId) = (a.running.get r).map (·.jobId)
  tasks : a'.tasks.Sublist a.tasks
  issued : a'.issued = a.issued

namespace FewerRuns

variable {env : Env} {a a' : SchedulerActor} {jobId : JobId}

theorem refl (a : SchedulerActor) : FewerRuns a a :=
  ⟨fun _ => le_refl _, fun _ => le_refl _, fun _ => le_refl _, fun _ => rfl,
    List.Sublist.refl _, rfl⟩

theorem trans {a'' : SchedulerActor} (h : FewerRuns a a') (h' : FewerRuns a' a'') :
    FewerRuns a a'' where
  queued := fun r => le_trans (h'.queued r) (h.queued r)
  blocked := fun r => le_trans (h'.blocked r) (h.blocked r)
  timed := fun r => le_trans (h'.timed r) (h.timed r)
  running := fun r => (h'.running r).trans (h.running r)
  tasks := h'.tasks.trans h.tasks
  issued := h'.issued.trans h.issued

theorem setReady {ready : ReadyQueue}
    (hr : ∀ r p, ready.pending.get r = some p → ∃ p', a.ready.pending.get r = some p') :
    FewerRuns a { a with ready := ready } := by
  refine { refl a with queued := fun r => ?_ }
  show ready.pending.holds r ≤ a.ready.pending.holds r
  unfold Table.holds
  cases hget : ready.pending.get r with
  | none => exact zero_le _
  | some p =>
    obtain ⟨p', hp'⟩ := hr r p hget
    rw [hp']
    exact le_refl _

/-- A Job is changed, and holds back no more than before. -/
theorem modifyJob {f : JobEntry → JobEntry}
    (hf : ∀ job, a.jobs.get jobId = some job → ∀ r, copies (f job).blocked r ≤ copies job.blocked r) :
    FewerRuns a (a.modifyJob jobId f) := by
  refine { refl a with blocked := fun r => ?_ }
  show (a.jobs.modify jobId f).sumBy _ ≤ a.jobs.sumBy _
  cases hj : a.jobs.get jobId with
  | none => rw [modify_of_none hj]
  | some job =>
    have hsum := sumBy_modify hj f fun job => copies job.blocked r
    have hle := hf job hj r
    omega

theorem cancelJobVersion (jobId : JobId) (version : Nat) :
    FewerRuns a (a.cancelJobVersion jobId version) := by
  refine { refl a with running := fun r => ?_ }
  unfold SchedulerActor.cancelJobVersion
  rw [get_mapVals, Option.map_map]
  congr 1
  funext e
  simp only [Function.comp_apply]
  split <;> rfl

theorem clearRetryTimers (jobId : JobId) : FewerRuns a (a.clearRetryTimers jobId) :=
  { refl a with timed := fun _ => sumBy_removeAll_le RetryTimer.key _ _ a.timers }

theorem scheduleNormal (jobId : JobId) (runAt : DateTime) {kind : TimerKind}
    (hk : kind = .normal ∨ kind = .runNow) :
    FewerRuns a (a.scheduleNormal env jobId runAt kind) := by
  unfold SchedulerActor.scheduleNormal
  split
  · exact refl a
  · rename_i job hj
    -- the new timer is no retry
    have hn : ∀ r, (TimerEntry.mk jobId job.version runAt kind).retries r = false := by
      intro r
      rcases hk with rfl | rfl <;> rfl
    have htimers : FewerRuns a
        { a with
          timers := (a.timers.removeKey job.normalTimerKey).insertAt
            ⟨jobId, job.version, runAt, kind⟩ } := by
      refine { refl a with timed := fun r => ?_ }
      have hle := sumBy_removeKey_le a.timers job.normalTimerKey
        fun entry => if entry.retries r then 1 else 0
      show ((a.timers.removeKey job.normalTimerKey).insertAt _).sumBy _ ≤ _
      rw [sumBy_insertAt, hn]
      simpa [timedRuns] using hle
    have hjob : FewerRuns a (SchedulerActor.modifyJob _ jobId
        (scheduleEntry (a.timers.removeKey job.normalTimerKey).nextKey runAt)) :=
      htimers.trans (modifyJob fun _ _ _ => le_refl _)
    exact hjob.trans { refl _ with }

theorem touch (h : Touch env jobId a a') : FewerRuns a a' := by
  cases h with
  | tick | emit => exact { refl a with }
  | removeKey key =>
    exact { refl a with timed := fun _ => sumBy_removeKey_le a.timers key _ }
  | clearRetries => exact clearRetryTimers jobId
  | setReady ready hr =>
    refine setReady fun r p hp => ?_
    obtain ⟨p', hp', -⟩ := hr r p hp
    exact ⟨p', hp'⟩
  | cancel version => exact cancelJobVersion jobId version
  | modifyJob f hf =>
    refine modifyJob fun job hj r => ?_
    obtain ⟨-, hb | ⟨g, hg, hb⟩⟩ := hf job hj
    · rw [hb]
      exact zero_le _
    · rw [hb, copies_map fun p => (hg p).1]
  | removeJob =>
    exact { refl a with blocked := fun _ => sumBy_remove_le a.jobs jobId _ }
  | scheduleNormal runAt kind hk => exact scheduleNormal jobId runAt hk

theorem touches (h : Touches env jobId a a') : FewerRuns a a' := by
  induction h with
  | refl => exact refl a
  | tail _ ht ih => exact ih.trans (touch ht)

/-- A new Job holds back nothing. -/
theorem insertJob {entry : JobEntry} (hj : a.jobs.get jobId = none) (hb : entry.blocked = []) :
    FewerRuns a { a with jobs := a.jobs.insert jobId entry } := by
  refine { refl a with blocked := fun r => le_of_eq ?_ }
  show (a.jobs.insert jobId entry).sumBy _ = a.jobs.sumBy _
  rw [sumBy_insert_new hj, hb]
  rfl

end FewerRuns

/-! ## 3. No step makes a second copy -/

/-- Every run is in at most one place, and was drawn before it was anywhere. Every task of the
    `JoinSet` is one of the running executions, no two of them the same. -/
structure RunsOnce (env : Env) (m : Machine) : Prop where
  once : ∀ r, m.places r ≤ 1
  drawn : ∀ r, 0 < m.places r → ∃ i, i < m.actor.issued ∧ env.runIds i = r
  tasks : ∀ task ∈ m.actor.tasks, (m.actor.running.get task.runId).map (·.jobId) = some task.jobId
  distinct : (m.actor.tasks.map (·.runId)).Nodup

namespace RunsOnce

variable {env : Env} {m m' : Machine} {p : PendingExecution} {jobId : JobId} {job : JobEntry}
  {task : SpawnedTask} {rest : List PendingExecution}

section

variable (h : RunsOnce env m)
include h

/-- The places hold no more, and no run id is drawn. -/
theorem of_le (hissued : m'.actor.issued = m.actor.issued) (hle : ∀ r, m'.places r ≤ m.places r)
    (htasks : ∀ task ∈ m'.actor.tasks, (m'.actor.running.get task.runId).map (·.jobId) = some task.jobId)
    (hdistinct : (m'.actor.tasks.map (·.runId)).Nodup) : RunsOnce env m' := by
  refine ⟨fun r => ?_, fun r hr => ?_, htasks, hdistinct⟩
  · have hone := h.once r
    have := hle r
    omega
  · obtain ⟨i, hi, he⟩ := h.drawn r (lt_of_lt_of_le hr (hle r))
    exact ⟨i, by omega, he⟩

/-- Only the actor changes, and adds a run to no place. -/
theorem fewer {a : SchedulerActor} (hf : FewerRuns m.actor a) :
    RunsOnce env { m with actor := a } := by
  refine h.of_le hf.issued (fun r => ?_) (fun task ht => ?_) ((hf.tasks.map _).nodup h.distinct)
  swap
  · exact (hf.running task.runId).trans (h.tasks task (hf.tasks.subset ht))
  have hqueued := hf.queued r
  have hblocked := hf.blocked r
  have htimed := hf.timed r
  have hrunning : a.runningRuns r = m.actor.runningRuns r := by
    have := congrArg Option.isSome (hf.running r)
    rw [isSome_map, isSome_map] at this
    unfold runningRuns Table.holds
    rw [this]
  unfold Machine.places
  dsimp only
  omega

/-- A run id is drawn: it was nowhere before. -/
theorem draw (p : PendingExecution) (hid : p.runId = env.runIds m.actor.issued) :
    RunsOnce env
      { m with
        actor := { m.actor with issued := m.actor.issued + 1 }
        held := p :: m.held } := by
  have hplaces : ∀ r, Machine.places
      { m with
        actor := { m.actor with issued := m.actor.issued + 1 }
        held := p :: m.held } r = m.places r + if p.runId = r then 1 else 0 := by
    intro r
    unfold Machine.places
    dsimp only
    rw [copies_cons]
    show m.actor.queuedRuns r + m.actor.blockedRuns r + m.actor.timedRuns r +
      m.actor.runningRuns r + _ + _ + _ = _
    omega
  refine ⟨fun r => ?_, fun r hr => ?_, h.tasks, h.distinct⟩
  · rw [hplaces]
    split
    · rename_i he
      have hzero : m.places r = 0 := by
        by_contra hne
        obtain ⟨i, hi, hr⟩ := h.drawn r (pos_of_ne_zero hne)
        have := env.runIds_injective (hr.trans (he.symm.trans hid))
        omega
      omega
    · exact h.once r
  · rw [hplaces] at hr
    split at hr
    · rename_i he
      exact ⟨m.actor.issued, lt_succ_self _, hid.symm.trans he⟩
    · obtain ⟨i, hi, he⟩ := h.drawn r hr
      exact ⟨i, lt_succ_of_lt hi, he⟩

/-- A queued run is not running. -/
theorem not_running_of_queued {r : RunId} (hq : m.actor.ready.pending.get r = some p) :
    m.actor.running.get r = none := by
  have hone := h.once r
  unfold Machine.places queuedRuns runningRuns Table.holds at hone
  rw [hq] at hone
  cases hr : m.actor.running.get r with
  | none => rfl
  | some =>
    rw [hr] at hone
    simp only [isSome_some, ↓reduceIte] at hone
    omega

/-- A run a Job holds back is not queued. -/
theorem not_queued_of_blocked (hj : m.actor.jobs.get jobId = some job) (hp : p ∈ job.blocked) :
    m.actor.ready.pending.get p.runId = none := by
  have hone := h.once p.runId
  have hcopy : 0 < copies job.blocked p.runId :=
    countP_pos_iff.mpr ⟨p, hp, decide_eq_true rfl⟩
  have hsum := sumBy_remove hj fun job => copies job.blocked p.runId
  unfold Machine.places queuedRuns blockedRuns Table.holds at hone
  cases hq : m.actor.ready.pending.get p.runId with
  | none => rfl
  | some =>
    rw [hq] at hone
    simp only [isSome_some, ↓reduceIte] at hone
    omega

/-- A Job holds a run back once. -/
theorem blocked_unique {q : PendingExecution} (hj : m.actor.jobs.get jobId = some job)
    (hp : p ∈ job.blocked) (hq : q ∈ job.blocked) (hid : p.runId = q.runId) : p = q := by
  have hone := h.once q.runId
  have hsum := sumBy_remove hj fun job => copies job.blocked q.runId
  unfold Machine.places blockedRuns at hone
  have hcopies : copies job.blocked q.runId ≤ 1 := by omega
  by_contra hne
  -- two different members with the run id would be two copies
  obtain ⟨l, r, hsplit⟩ := append_of_mem hp
  have hrest : q ∈ l ++ r := by
    rw [hsplit] at hq
    rcases mem_append.mp hq with hq | hq
    · exact mem_append_left _ hq
    · rcases mem_cons.mp hq with hq | hq
      · exact absurd hq.symm hne
      · exact mem_append_right _ hq
  have hperm : job.blocked.Perm (p :: (l ++ r)) := by
    rw [hsplit]
    exact perm_middle
  have hcount : copies job.blocked q.runId = copies (p :: (l ++ r)) q.runId := hperm.countP_eq _
  have hpos : 0 < copies (l ++ r) q.runId := countP_pos_iff.mpr ⟨q, hrest, decide_eq_true rfl⟩
  rw [hcount, copies_cons, if_pos hid] at hcopies
  omega

/-- An execution starts: its run moves from the queue to the running ones. -/
theorem start {ready : ReadyQueue} (hp : m.actor.ready.pending.get p.runId = some p)
    (hr : ready.pending = m.actor.ready.pending.remove p.runId) :
    RunsOnce env { m with actor := ({ m.actor with ready := ready }).spawnExecution env p } := by
  have hshrink : FewerRuns m.actor { m.actor with ready := ready } := by
    refine FewerRuns.setReady fun r q hq => ?_
    rw [hr, get_remove] at hq
    split at hq
    · cases hq
    · exact ⟨q, hq⟩
  have hfree := h.not_running_of_queued hp
  unfold spawnExecution
  split
  · exact h.fewer hshrink
  · split
    · exact h.fewer hshrink
    · refine h.of_le rfl (fun r => ?_) (fun task ht => ?_) ?_
      · have hqueued := holds_remove hp r
        have hrunning := holds_insert_new hfree ⟨p.jobId, p.version, false⟩ r
        have hblocked : (m.actor.jobs.modify p.jobId
            (startEntry (m.actor.now env) p.scheduledAt)).sumBy (fun job => copies job.blocked r) =
            m.actor.jobs.sumBy (fun job => copies job.blocked r) :=
          sumBy_modify_eq fun _ => rfl
        rw [← hr] at hqueued
        unfold Machine.places queuedRuns blockedRuns timedRuns runningRuns
        dsimp only [emit, tick, modifyJob, now]
        dsimp only [now] at hblocked
        omega
      · show ((m.actor.running.insert p.runId _).get task.runId).map _ = _
        rw [get_insert]
        rcases mem_append.mp ht with ht | ht
        · have hrun := h.tasks task ht
          split
          · rename_i he
            rw [he, hfree] at hrun
            cases hrun
          · exact hrun
        · cases mem_singleton.mp ht
          rw [if_pos rfl]
          rfl
      · rw [map_append, nodup_append]
        refine ⟨h.distinct, nodup_singleton _, fun r hmem r' hmem' he => ?_⟩
        obtain ⟨task, ht, rfl⟩ := mem_map.mp hmem
        have hrun := h.tasks task ht
        rw [he, mem_singleton.mp hmem'] at hrun
        rw [hfree] at hrun
        cases hrun

/-- An execution ends: its run moves from the running ones into the handler's hands. -/
theorem finish (ht : task ∈ m.actor.tasks) : RunsOnce env
      { m with
        actor :=
          ({ m.actor with tasks := m.actor.tasks.erase task }).release env task.jobId task.runId
        finished := task :: m.finished } := by
  obtain ⟨e, he, -⟩ := map_eq_some_iff.mp (h.tasks task ht)
  have hperm := (perm_cons_erase ht).map SpawnedTask.runId
  have hdistinct := hperm.nodup_iff.mp h.distinct
  rw [map_cons, nodup_cons] at hdistinct
  refine h.of_le rfl (fun r => ?_) (fun t hmem => ?_) hdistinct.2
  · have hrunning := holds_remove he r
    have hblocked : (m.actor.jobs.modify task.jobId (releaseEntry (m.actor.now env))).sumBy
        (fun job => copies job.blocked r) = m.actor.jobs.sumBy (fun job => copies job.blocked r) :=
      sumBy_modify_eq fun _ => rfl
    unfold Machine.places queuedRuns blockedRuns timedRuns runningRuns
    dsimp only [release, tick, modifyJob, now]
    dsimp only [now] at hblocked
    rw [countP_cons, hblocked]
    simp only [decide_eq_true_eq]
    omega
  · show ((m.actor.running.remove task.runId).get t.runId).map _ = _
    have hne : t.runId ≠ task.runId := fun heq => hdistinct.1 (heq ▸ mem_map_of_mem hmem)
    rw [get_remove, if_neg hne]
    exact h.tasks t (mem_of_mem_erase hmem)

/-- The tasks and the running executions stay as they are. -/
theorem move (hissued : m'.actor.issued = m.actor.issued)
    (hrun : m'.actor.running = m.actor.running) (htasks : m'.actor.tasks = m.actor.tasks)
    (hle : ∀ r, m'.places r ≤ m.places r) : RunsOnce env m' := by
  refine h.of_le hissued hle ?_ ?_
  · rw [htasks, hrun]
    exact h.tasks
  · rw [htasks]
    exact h.distinct

/-- A timer leaves the queue with its batch. -/
theorem expire {key : Nat} {entry : TimerEntry} (hg : m.actor.timers.get key = some entry) :
    RunsOnce env
      { m with
        actor := { m.actor with timers := m.actor.timers.tryRemove key }
        popped := m.popped ++ [(key, entry)] } := by
  refine h.move rfl rfl rfl fun r => ?_
  have htimed := sumBy_tryRemove hg fun e => if e.retries r then 1 else 0
  unfold Machine.places queuedRuns blockedRuns timedRuns runningRuns
  rw [countP_append, countP_singleton]
  dsimp only
  omega

/-- The first timer of the batch is dropped. -/
theorem dropTimer {e : Nat × TimerEntry} {rest : List (Nat × TimerEntry)}
    (hp : m.popped = e :: rest) : RunsOnce env { m with popped := rest } := by
  refine h.move rfl rfl rfl fun r => ?_
  unfold Machine.places
  dsimp only
  rw [hp, countP_cons]
  omega

/-- A retry timer of the batch becomes an execution. -/
theorem fireRetry {key : Nat} {entry : TimerEntry} {rest : List (Nat × TimerEntry)}
    {runId : RunId} {scheduledAt : DateTime} {attempt : Nat}
    (hp : m.popped = (key, entry) :: rest) (hk : entry.kind = .retry runId scheduledAt attempt)
    (retryTimers : Table RunId RetryTimer) (priority : JobPriority) (batchId : Nat) :
    RunsOnce env
      { m with
        actor := { m.actor with retryTimers := retryTimers }
        popped := rest
        held := entry.retryOf runId scheduledAt attempt priority batchId :: m.held } := by
  refine h.move rfl rfl rfl fun r => ?_
  have hretries : entry.retries r = decide (runId = r) := by
    unfold TimerEntry.retries
    rw [hk]
  unfold Machine.places queuedRuns blockedRuns timedRuns runningRuns
  rw [hp, countP_cons, copies_cons]
  dsimp only [TimerEntry.retryOf]
  rw [hretries]
  by_cases he : runId = r
  · simp only [he, decide_true, ↓reduceIte]
    omega
  · simp only [he, decide_false, Bool.false_eq_true, ↓reduceIte]
    omega

/-- A held execution is queued. -/
theorem queue (hh : m.held = p :: rest) : RunsOnce env
      { m with actor := { m.actor with ready := m.actor.ready.insert p }, held := rest } := by
  refine h.move rfl rfl rfl fun r => ?_
  have hqueued := holds_insert_le m.actor.ready.pending p.runId p r
  unfold Machine.places queuedRuns blockedRuns timedRuns runningRuns
  dsimp only
  rw [hh, copies_cons, ReadyQueue.pending_insert]
  omega

/-- A held execution is held back by its Job, or dropped with it. -/
theorem block (hh : m.held = p :: rest) :
    RunsOnce env { m with actor := m.actor.modifyJob p.jobId (pushBlocked p), held := rest } := by
  refine h.move rfl rfl rfl fun r => ?_
  have hblocked : (m.actor.jobs.modify p.jobId (pushBlocked p)).sumBy
      (fun job => copies job.blocked r) ≤
      m.actor.jobs.sumBy (fun job => copies job.blocked r) + if p.runId = r then 1 else 0 := by
    cases hj : m.actor.jobs.get p.jobId with
    | none =>
      rw [modify_of_none hj]
      omega
    | some job =>
      have hsum := sumBy_modify hj (pushBlocked p) fun job => copies job.blocked r
      have hpush : copies (pushBlocked p job).blocked r =
          copies job.blocked r + if p.runId = r then 1 else 0 := by
        simp [copies, pushBlocked]
      omega
  unfold Machine.places queuedRuns blockedRuns timedRuns runningRuns
  dsimp only [modifyJob]
  rw [hh, copies_cons]
  omega

theorem drop (hh : m.held = p :: rest) : RunsOnce env { m with held := rest } := by
  refine h.move rfl rfl rfl fun r => ?_
  unfold Machine.places
  dsimp only
  rw [hh, copies_cons]
  omega

/-- A Job gives back the first execution it holds back. -/
theorem unblock (hj : m.actor.jobs.get jobId = some job) (hb : job.blocked = p :: rest) :
    RunsOnce env
      { m with actor := m.actor.modifyJob jobId popBlocked, held := p :: m.held } := by
  refine h.move rfl rfl rfl fun r => ?_
  have hsum := sumBy_modify hj popBlocked fun job => copies job.blocked r
  have hpop : copies (popBlocked job).blocked r = copies rest r := by
    unfold popBlocked
    rw [hb]
    rfl
  rw [hb, copies_cons] at hsum
  unfold Machine.places queuedRuns blockedRuns timedRuns runningRuns
  dsimp only [modifyJob]
  rw [copies_cons]
  omega

/-- The run of a failed attempt moves to its retry timer. -/
theorem retry {rest : List SpawnedTask} (hf : m.finished = task :: rest) (runAt : DateTime)
    (attempt : Nat) : RunsOnce env
      { m with
        actor :=
          m.actor.scheduleRetry env task.jobId task.version task.runId task.scheduledAt attempt runAt
        finished := rest } := by
  refine h.move rfl rfl rfl fun r => ?_
  have htimed := sumBy_removeKey_le m.actor.timers
    ((m.actor.retryTimers.get task.runId).map RetryTimer.key)
    fun e => if e.retries r then 1 else 0
  unfold Machine.places queuedRuns blockedRuns timedRuns runningRuns
  dsimp only [scheduleRetry, emit]
  rw [hf, countP_cons, sumBy_insertAt]
  simp only [TimerEntry.retries, decide_eq_true_eq] at htimed ⊢
  omega

theorem forget {rest : List SpawnedTask} (hf : m.finished = task :: rest) :
    RunsOnce env { m with finished := rest } := by
  refine h.move rfl rfl rfl fun r => ?_
  unfold Machine.places
  dsimp only
  rw [hf, countP_cons]
  omega

end

/-- **No step makes a second copy of a run.** -/
theorem step {kind : StepKind} (hstep : Step env kind m m') (h : RunsOnce env m) :
    RunsOnce env m' := by
  have hr := FewerRuns.refl m.actor
  cases hstep with
  | silent | configure | emit => exact h.fewer { hr with }
  | cancel _ jobId version => exact h.fewer (.cancelJobVersion jobId version)
  | expire _ key entry hg => exact h.expire hg
  | ignore _ key entry rest hp => exact h.dropTimer hp
  | fire _ key entry rest job hp =>
    have h₁ : RunsOnce env { m with actor := m.actor.modifyJob entry.jobId clearNormalTimer } :=
      h.fewer (.modifyJob fun _ _ _ => le_refl _)
    exact h₁.dropTimer hp
  | fireRetry _ key entry rest job runId scheduledAt attempt batchId hp _ _ _ hk =>
    exact h.fireRetry hp hk _ _ _
  | scheduleNormal _ jobId runAt kind hk => exact h.fewer (.scheduleNormal jobId runAt hk)
  | clearRetries _ jobId => exact h.fewer (.clearRetryTimers jobId)
  | draw _ p hid => exact h.draw p hid
  | queue _ p rest hh => exact h.queue hh
  | block _ p rest hh => exact h.block hh
  | drop _ p rest hh => exact h.drop hh
  | shrinkReady _ ready hsub => exact h.fewer (.setReady fun r p hp => ⟨p, hsub r p hp⟩)
  | dropReplaceable _ =>
    exact h.fewer (.modifyJob fun job _ r => filter_sublist.countP_le)
  | unblock _ jobId job p rest hj hb => exact h.unblock hj hb
  | start _ p ready hp hready => exact h.start hp hready
  | finish _ task ht => exact h.finish ht
  | lose => exact h.fewer { hr with tasks := erase_sublist }
  | retry _ task rest runAt hf _ => exact h.retry hf runAt _
  | forget _ task rest hf => exact h.forget hf
  | succeed _ jobId _ | fail _ jobId _ _ | complete _ jobId _ _ _ _ _ =>
    exact h.fewer (.modifyJob fun _ _ _ => le_refl _)
  | rehash _ jobs hsame =>
    exact h.fewer { hr with blocked := fun _ => le_of_eq (hsame.sumBy_eq _) }
  | disable _ jobId job reason _ => exact h.fewer (.touches (.commitDisable _ jobId job _ reason))
  | update _ jobId job patch plan hj => exact h.fewer (.touches (.commitUpdate patch plan hj))
  | enable _ jobId job now next _ => exact h.fewer (.touches (.commitEnable _ jobId _ now next))
  | delete _ jobId job cancelRunning _ =>
    exact h.fewer (.touches (.commitDelete _ jobId job cancelRunning))
  | install _ jobId generation enabled trigger task options now firstRun hj =>
    exact h.fewer ((FewerRuns.insertJob hj rfl).trans
      (.touches (.installJob _ jobId _ enabled firstRun)))

theorem initial (config : SchedulerConfig) :
    RunsOnce env (.idle (SchedulerActor.start env config)) where
  once := fun _ => zero_le _
  drawn := fun _ hr => absurd hr (lt_irrefl _)
  tasks := nofun
  distinct := nodup_nil

theorem steps (hsteps : Steps env (fun _ => True) m m') (h : RunsOnce env m) : RunsOnce env m' :=
  hsteps.keep (RunsOnce env) (fun _ _ _ _ hstep hi => hi.step hstep) h

theorem handle {a : SchedulerActor} (h : RunsOnce env (.idle a)) (message : Message) :
    RunsOnce env (.idle (a.handle env message)) :=
  h.steps (handle_steps message fun _ _ => trivial)

theorem settle {a : SchedulerActor} (h : RunsOnce env (.idle a)) :
    RunsOnce env (.idle (a.settle env)) := h.steps (settle_steps trivial trivial trivial a)

theorem turn {a : SchedulerActor} (h : RunsOnce env (.idle a)) (message : Message) :
    RunsOnce env (.idle (a.turn env message)) :=
  turn_keeps (fun a => RunsOnce env (.idle a)) (h.handle message) (fun _ => settle) h

end RunsOnce

/-- **Every execution is in one place**: in every state of every run, at most one of queue,
    held-back lists, retry timers and running executions holds it, once; the tasks of the `JoinSet`
    are different running executions. -/
theorem run_in_one_place (env : Env) (config : SchedulerConfig) (messages : List Message) :
    let a := after env config messages
    (∀ r, a.queuedRuns r + a.blockedRuns r + a.timedRuns r + a.runningRuns r ≤ 1) ∧
      (a.tasks.map (·.runId)).Nodup ∧
      ∀ task ∈ a.tasks, (a.running.get task.runId).map (·.jobId) = some task.jobId := by
  have h : RunsOnce env (.idle (after env config messages)) :=
    run_invariant (fun a message (h : RunsOnce env (.idle a)) _ => h.turn message) messages _
      (.initial config) (along_trivial messages _)
  exact ⟨fun r => by simpa [Machine.places, Machine.idle, copies] using h.once r, h.distinct, h.tasks⟩

end Smalux.Scheduler
