/-
  Subject:   Which executions `pop_dispatchable` can still find.

  An execution is found through its keys, so the queue answers truthfully exactly when every
  pending execution has a key in the heap (`dispatchComplete_iff_covered`). Every operation keeps
  the keys except one path of `pop_dispatchable` itself: when nothing can run the heap is drained
  and the keys set aside are dropped with it.

  * `Covered` -- every pending execution has a key;
  * **`pop_finds_runnable_iff`** -- over whole runs, the queue answers truthfully in every state
    exactly when no call of `pop_dispatchable` met a non-empty queue with nothing to run.
-/
import Smalux.Lib.Run
import Smalux.Scheduler.Queue

namespace Smalux.Scheduler

open Lib Table List

namespace ReadyQueue

variable {q : ReadyQueue}

/-! ## 1. The operations and the property -/

/-- The operations of the queue; `rehash` is the map changing its iteration order. -/
inductive Op where
  | insert (pending : PendingExecution)
  | popDispatchable (canRun : PendingExecution → Bool)
  | removeOldestTrigger (jobId : JobId)
  | removeNormalTriggers (jobId : JobId)
  | removeJob (jobId : JobId)
  | migrateJob (jobId : JobId) (version : Nat) (priority : JobPriority)
  | clear
  | rehash (entries : List (RunId × PendingExecution))

def step (q : ReadyQueue) : Op → ReadyQueue
  | .insert pending => q.insert pending
  | .popDispatchable canRun => (q.popDispatchable canRun).2
  | .removeOldestTrigger jobId => (q.removeOldestTrigger jobId).2
  | .removeNormalTriggers jobId => (q.removeNormalTriggers jobId).2
  | .removeJob jobId => (q.removeJob jobId).2
  | .migrateJob jobId version priority => q.migrateJob jobId version priority
  | .clear => q.clear
  | .rehash entries => q.rehash entries

/-- `pop_dispatchable` answers `None` only if no pending execution can run. -/
def DispatchComplete (q : ReadyQueue) : Prop :=
  ∀ canRun, (q.popDispatchable canRun).1 = none →
    ∀ runId p, q.pending.get runId = some p → canRun p = false

/-- Every pending execution has a key in the heap. -/
def Covered (q : ReadyQueue) : Prop :=
  ∀ runId p, q.pending.get runId = some p → ∃ key ∈ q.heap, key.runId = runId

/-- A call of `pop_dispatchable` is safe when nothing is pending or something can run. -/
def PopGuard (q : ReadyQueue) : Op → Prop
  | .popDispatchable canRun =>
    (∀ runId, q.pending.get runId = none) ∨
      ∃ runId p, q.pending.get runId = some p ∧ canRun p = true
  | _ => True

/-! ## 2. Truthful answers and keys -/

/-- **The queue answers truthfully exactly when every pending execution has a key.** -/
theorem dispatchComplete_iff_covered : q.DispatchComplete ↔ q.Covered := by
  constructor
  · intro h runId p hp
    -- ask for this very execution
    have hself := h (fun e => decide (e.runId = runId))
    cases ho : (q.popDispatchable (fun e => decide (e.runId = runId))).1 with
    | none =>
      have hfalse := hself ho runId p hp
      simp [q.keyed runId p hp] at hfalse
    | some =>
      obtain ⟨hc, -, hkey, -, -⟩ := popDispatchable_some ho
      rwa [of_decide_eq_true hc] at hkey
  · intro h canRun hn runId p hp
    obtain ⟨key, hk, rfl⟩ := h runId p hp
    exact (popDispatchable_none hn).2.2 key hk p hp

/-! ## 3. What each operation does to the keys -/

theorem mem_pushKeys_of_mem : ∀ {ps : List PendingExecution} {heap : List ReadyKey} {sequence : Nat}
    {key : ReadyKey}, key ∈ heap → key ∈ (pushKeys heap sequence ps).1
  | [], _, _, _, h => h
  | p :: ps, heap, sequence, key, h => by
    rw [pushKeys]
    exact mem_pushKeys_of_mem (mem_cons_of_mem _ h)

theorem pushKeys_covers : ∀ {ps : List PendingExecution} {heap : List ReadyKey} {sequence : Nat}
    {p : PendingExecution}, p ∈ ps → ∃ n, p.key n ∈ (pushKeys heap sequence ps).1
  | e :: ps, heap, sequence, p, h => by
    rw [pushKeys]
    rcases mem_cons.mp h with rfl | h
    · exact ⟨wrappingSucc sequence, mem_pushKeys_of_mem mem_cons_self⟩
    · exact pushKeys_covers h

theorem Covered.compactIfNeeded (h : q.Covered) : q.compactIfNeeded.Covered := by
  unfold ReadyQueue.compactIfNeeded
  split
  · exact h
  · intro runId p hp
    have hm : p ∈ q.pending.values := mem_values_iff.mpr ⟨runId, hp⟩
    obtain ⟨n, hk⟩ : ∃ n, p.key n ∈ (pushKeys [] q.sequence q.pending.values).1 := pushKeys_covers hm
    exact ⟨p.key n, hk, q.keyed runId p hp⟩

/-- Fewer executions under the same keys. -/
theorem Covered.shrink {q' : ReadyQueue} (h : q.Covered) (hheap : q'.heap = q.heap)
    (hsub : ∀ runId p, q'.pending.get runId = some p → q.pending.get runId = some p) :
    q'.Covered := by
  intro runId p hp
  rw [hheap]
  exact h runId p (hsub runId p hp)

theorem Covered.insert (h : q.Covered) (pending : PendingExecution) :
    (q.insert pending).Covered := by
  refine Covered.compactIfNeeded fun runId p hp => ?_
  simp only [get_insert] at hp
  split at hp
  · rename_i hr
    exact ⟨_, mem_cons_self, hr.symm⟩
  · obtain ⟨key, hk, he⟩ := h runId p hp
    exact ⟨key, mem_cons_of_mem _ hk, he⟩

theorem Covered.removeOldestTrigger (h : q.Covered) (jobId : JobId) :
    (q.removeOldestTrigger jobId).2.Covered := by
  unfold ReadyQueue.removeOldestTrigger
  split
  · exact h
  · exact h.shrink rfl fun _ _ => get_take_some

theorem Covered.migrateJob (h : q.Covered) (jobId : JobId) (version : Nat) (priority : JobPriority) :
    (q.migrateJob jobId version priority).Covered := by
  refine Covered.compactIfNeeded fun runId p hp => ?_
  simp only [get_mapVals, Option.map_eq_some_iff] at hp
  obtain ⟨e, he, -⟩ := hp
  obtain ⟨key, hk, hr⟩ := h runId e he
  exact ⟨key, mem_pushKeys_of_mem hk, hr⟩

theorem Covered.rehash (h : q.Covered) (entries : List (RunId × PendingExecution)) :
    (q.rehash entries).Covered := by
  unfold ReadyQueue.rehash
  split
  · rename_i hperm
    refine h.shrink rfl fun runId p hp => ?_
    rw [get_eq_some_iff] at hp ⊢
    exact hperm.mem_iff.mpr hp
  · exact h

/-- A pop that finds something puts every key it set aside back. -/
theorem Covered.popDispatchable_some (h : q.Covered) {canRun : PendingExecution → Bool}
    {p : PendingExecution} (hp : (q.popDispatchable canRun).1 = some p) :
    (q.popDispatchable canRun).2.Covered := by
  obtain ⟨-, -, -, hpending, hkeys⟩ := ReadyQueue.popDispatchable_some hp
  intro runId e he
  rw [hpending, get_remove] at he
  split at he
  · cases he
  · rename_i hne
    obtain ⟨key, hk, rfl⟩ := h runId e he
    rcases hkeys key hk (by rw [he]; exact Option.some_ne_none _) with hm | hr
    · exact ⟨key, hm, rfl⟩
    · exact absurd hr hne

/-! ## 4. Runs -/

theorem Covered.step (h : q.Covered) (op : Op) (hop : q.PopGuard op) : (q.step op).Covered := by
  cases op with
  | insert pending => exact h.insert pending
  | popDispatchable canRun =>
    cases ho : (q.popDispatchable canRun).1 with
    | some => exact h.popDispatchable_some ho
    | none =>
      obtain ⟨-, hpending, -⟩ := popDispatchable_none ho
      rcases hop with hempty | ⟨runId, p, hp, hc⟩
      · intro runId p hp
        simp only [ReadyQueue.step, hpending, hempty] at hp
        cases hp
      · -- something could run, so the answer was not `None`
        have := dispatchComplete_iff_covered.mpr h canRun ho runId p hp
        rw [hc] at this
        cases this
  | removeOldestTrigger jobId => exact h.removeOldestTrigger jobId
  | removeNormalTriggers | removeJob => exact h.shrink rfl fun _ _ => get_retain_some
  | migrateJob jobId version priority => exact h.migrateJob jobId version priority
  | clear =>
    intro runId p hp
    cases hp
  | rehash entries => exact h.rehash entries

/-- A pop that finds nothing in a non-empty queue leaves executions without a key. -/
theorem popGuard_of_covered (op : Op) (h : (q.step op).Covered) : q.PopGuard op := by
  cases op with
  | popDispatchable canRun =>
    cases ho : (q.popDispatchable canRun).1 with
    | some p =>
      obtain ⟨hc, hp, -⟩ := popDispatchable_some ho
      exact .inr ⟨p.runId, p, hp, hc⟩
    | none =>
      obtain ⟨hheap, hpending, -⟩ := popDispatchable_none ho
      refine .inl fun runId => ?_
      cases hp : q.pending.get runId with
      | none => rfl
      | some p =>
        obtain ⟨key, hk, -⟩ := h runId p (by rw [ReadyQueue.step, hpending, hp])
        rw [ReadyQueue.step, hheap] at hk
        cases hk
  | _ => trivial

theorem covered_new : new.Covered := by
  intro runId p hp
  cases hp

/-- **The queue answers truthfully in every state of a run exactly when each call of
    `pop_dispatchable` met an empty queue or an execution that could run.** -/
theorem pop_finds_runnable_iff (ops : List Op) :
    Throughout step DispatchComplete new ops ↔ Along step PopGuard new ops := by
  refine throughout_iff_along (fun q op h hop => ?_) (fun _ h => h) (fun q op _ h => ?_) ?_
  · exact dispatchComplete_iff_covered.mpr ((dispatchComplete_iff_covered.mp h).step op hop)
  · exact popGuard_of_covered op (dispatchComplete_iff_covered.mp h)
  · exact dispatchComplete_iff_covered.mpr covered_new

/-- One execution of Job 1, the only one in the queue. -/
def loneExecution : PendingExecution where
  jobId := 1
  version := 1
  runId := 7
  attempt := 1
  scheduledAt := 0
  kind := .normal
  priority := JobPriority.normal
  batchId := 1

/-- The queue is asked while Job 1 is at its concurrency limit. -/
def lostRun : List Op := [.insert loneExecution, .popDispatchable (fun p => decide (p.jobId ≠ 1))]

/-- **A run that loses an execution**: it stays pending, and the queue denies it even when
    everything may run. -/
theorem blocked_execution_lost : (run step new lostRun).pending.get 7 = some loneExecution ∧
      ((run step new lostRun).popDispatchable (fun _ => true)).1 = none ∧
      ¬ Throughout step DispatchComplete new lostRun := by
  refine ⟨rfl, rfl, fun h => ?_⟩
  have hfalse := h _ (prefix_refl _) (fun _ => true) rfl 7 loneExecution rfl
  cases hfalse

end ReadyQueue

end Smalux.Scheduler
