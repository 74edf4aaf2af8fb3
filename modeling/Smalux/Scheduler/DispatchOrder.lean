/-
  Subject:   In which order `pop_dispatchable` answers.

  The order is that of the keys, and a key keeps the priority its execution had when it was pushed.
  A migration to a lower priority leaves the old key in front, a run id that comes back meets the
  keys of its earlier life, and an execution without a key is passed over.

  * `Faithful` -- every execution has a key with its present data, and no key promises more;
  * **`dispatch_in_order`** -- in every run in which priorities are not lowered, run ids come back
    only when their keys are gone, and no call meets a non-empty queue with nothing to run.
-/
import Smalux.Scheduler.QueueCoverage

namespace Smalux.Scheduler

open Lib Table List

/-- Smaller batch, then higher priority, then earlier planned time. -/
def PendingExecution.Precedes (e p : PendingExecution) : Prop :=
  e.batchId < p.batchId ∨ e.batchId = p.batchId ∧ (p.priority.value < e.priority.value ∨
    p.priority.value = e.priority.value ∧ e.scheduledAt < p.scheduledAt)
  deriving Decidable

namespace ReadyQueue

variable {q q' : ReadyQueue} {p : PendingExecution}

/-- What `pop_dispatchable` answers is preceded by nothing that can run. -/
def DispatchOrdered (q : ReadyQueue) : Prop :=
  ∀ canRun p, (q.popDispatchable canRun).1 = some p →
    ∀ runId e, q.pending.get runId = some e → canRun e = true → ¬ e.Precedes p

/-- An inserted run has no key left in the heap, a migration lowers no priority, and a pop meets an
    empty queue or an execution that can run. -/
def OrderGuard (q : ReadyQueue) : Op → Prop
  | .insert p => ∀ key ∈ q.heap, key.runId ≠ p.runId
  | .migrateJob jobId _ priority => ∀ runId p, q.pending.get runId = some p → p.jobId = jobId →
      p.priority.value ≤ priority.value
  | op => q.PopGuard op

/-! ## 1. Keys and executions -/

/-- A key that stands for `p`: its batch and time, and no higher priority. -/
structure Stands (p : PendingExecution) (key : ReadyKey) : Prop where
  batchId : key.batchId = p.batchId
  scheduledAt : key.scheduledAt = p.scheduledAt
  priority : key.priority.value ≤ p.priority.value

structure Faithful (q : ReadyQueue) : Prop where
  stands : ∀ key ∈ q.heap, ∀ p, q.pending.get key.runId = some p → Stands p key
  present : ∀ runId p, q.pending.get runId = some p → ∃ sequence, p.key sequence ∈ q.heap

theorem stands_key (p : PendingExecution) (sequence : Nat) : Stands p (p.key sequence) :=
  ⟨rfl, rfl, Nat.le_refl _⟩

/-- **The answer is in order**: an execution that precedes it has a greater key. -/
theorem Faithful.ordered (h : q.Faithful) : q.DispatchOrdered := by
  intro canRun p hp runId e he hrun hprecedes
  obtain ⟨⟨key, hkey, hlive, hfirst⟩, -⟩ := popDispatchable_first hp
  obtain ⟨sequence, hpresent⟩ := h.present runId e he
  have hstands := h.stands key hkey p hlive
  have hlt : key.cmp (e.key sequence) = .lt := by
    rw [ReadyKey.cmp_lt_iff, hstands.batchId, hstands.scheduledAt]
    have hle := hstands.priority
    simp only [PendingExecution.Precedes] at hprecedes
    simp only [PendingExecution.key]
    grind
  have hid : (e.key sequence).runId = runId := q.keyed _ _ he
  rw [hfirst _ hpresent hlt e (hid.symm ▸ he)] at hrun
  cases hrun

/-! ## 2. The operations -/

theorem mem_pushKeys_iff : ∀ {ps : List PendingExecution} {heap : List ReadyKey} {sequence : Nat}
    {key : ReadyKey}, key ∈ (pushKeys heap sequence ps).1 → key ∈ heap ∨
      ∃ p ∈ ps, ∃ n, key = p.key n
  | [], _, _, _, h => .inl h
  | p :: ps, heap, sequence, key, h => by
    rw [pushKeys] at h
    rcases mem_pushKeys_iff h with hheap | ⟨p', hp', hkey⟩
    · rcases mem_cons.mp hheap with rfl | hheap
      · exact .inr ⟨p, mem_cons_self, _, rfl⟩
      · exact .inl hheap
    · exact .inr ⟨p', mem_cons_of_mem _ hp', hkey⟩

theorem get_of_mem_values (q : ReadyQueue) (h : p ∈ q.pending.values) :
    q.pending.get p.runId = some p := by
  obtain ⟨runId, hget⟩ := mem_values_iff.mp h
  rw [q.keyed _ _ hget]
  exact hget

theorem Faithful.compactIfNeeded (h : q.Faithful) : q.compactIfNeeded.Faithful := by
  unfold ReadyQueue.compactIfNeeded
  split
  · exact h
  · refine ⟨fun key hkey p hp => ?_, fun runId p hp => ?_⟩
    · rcases mem_pushKeys_iff hkey with hnil | ⟨p', hp', n, rfl⟩
      · cases hnil
      · cases (q.get_of_mem_values hp').symm.trans hp
        exact stands_key p n
    · exact pushKeys_covers (mem_values_iff.mpr ⟨runId, hp⟩)

/-- Fewer executions under keys of which none of theirs is missing. -/
theorem Faithful.shrink (h : q.Faithful)
    (hsub : ∀ runId p, q'.pending.get runId = some p → q.pending.get runId = some p)
    (hheap : ∀ key ∈ q'.heap, key ∈ q.heap)
    (hback : ∀ key ∈ q.heap, q'.pending.get key.runId ≠ none → key ∈ q'.heap) : q'.Faithful := by
  refine ⟨fun key hkey p hp => h.stands key (hheap key hkey) p (hsub _ p hp), fun runId p hp => ?_⟩
  obtain ⟨sequence, hkey⟩ := h.present runId p (hsub runId p hp)
  refine ⟨sequence, hback _ hkey ?_⟩
  rw [show (p.key sequence).runId = runId from q.keyed _ _ (hsub runId p hp), hp]
  exact Option.some_ne_none _

theorem Faithful.insert (h : q.Faithful) (hnew : ∀ key ∈ q.heap, key.runId ≠ p.runId) :
    (q.insert p).Faithful := by
  refine Faithful.compactIfNeeded ⟨fun key hkey e he => ?_, fun runId e he => ?_⟩
  · rw [get_insert] at he
    rcases mem_cons.mp hkey with rfl | hkey
    · cases he.symm.trans (if_pos rfl)
      exact stands_key p _
    · rw [if_neg (hnew key hkey)] at he
      exact h.stands key hkey e he
  · simp only [get_insert] at he
    split at he
    · cases he
      exact ⟨_, mem_cons_self⟩
    · obtain ⟨n, hn⟩ := h.present runId e he
      exact ⟨n, mem_cons_of_mem _ hn⟩

/-- The Job's executions have the new priority and a key with it; their old keys have not a higher
    one. -/
theorem Faithful.migrated (h : q.Faithful) {jobId : JobId} {version : Nat} {priority : JobPriority}
    (hup : ∀ runId p, q.pending.get runId = some p → p.jobId = jobId →
      p.priority.value ≤ priority.value)
    (hpending : q'.pending = q.pending.mapVals (restamp jobId version priority))
    (hheap : q'.heap = (pushKeys q.heap q.sequence
      (q'.pending.values.filter fun p => p.jobId = jobId)).1) : q'.Faithful := by
  have hget : ∀ runId, q'.pending.get runId =
      (q.pending.get runId).map (restamp jobId version priority) := fun runId => by
    rw [hpending, get_mapVals]
  constructor
  · intro key hkey p hp
    rw [hheap] at hkey
    rcases mem_pushKeys_iff hkey with hold | ⟨p', hp', n, rfl⟩
    · rw [hget, Option.map_eq_some_iff] at hp
      obtain ⟨e, he, rfl⟩ := hp
      have hstands := h.stands key hold e he
      unfold restamp
      split
      · rename_i hjob
        exact ⟨hstands.batchId, hstands.scheduledAt, hstands.priority.trans (hup _ e he hjob)⟩
      · exact hstands
    · cases (q'.get_of_mem_values (mem_filter.mp hp').1).symm.trans hp
      exact stands_key p n
  · intro runId p hp
    rw [hheap]
    by_cases hjob : p.jobId = jobId
    · exact pushKeys_covers (mem_filter.mpr
        ⟨mem_values_iff.mpr ⟨runId, hp⟩, decide_eq_true hjob⟩)
    · rw [hget, Option.map_eq_some_iff] at hp
      obtain ⟨e, he, rfl⟩ := hp
      have hsame : restamp jobId version priority e = e := by
        unfold restamp at hjob ⊢
        split at hjob
        · rename_i hown
          exact absurd hown hjob
        · rename_i hother
          exact if_neg hother
      rw [hsame]
      obtain ⟨n, hn⟩ := h.present runId e he
      exact ⟨n, mem_pushKeys_of_mem hn⟩

theorem Faithful.rehash (h : q.Faithful) (entries : List (RunId × PendingExecution)) :
    (q.rehash entries).Faithful := by
  unfold ReadyQueue.rehash
  split
  · rename_i hperm
    refine h.shrink (fun runId p hp => ?_) (fun _ hkey => hkey) fun _ hkey _ => hkey
    rw [get_eq_some_iff] at hp ⊢
    exact hperm.mem_iff.mpr hp
  · exact h

theorem Faithful.covered (h : q.Faithful) : q.Covered := fun runId p hp => by
  obtain ⟨n, hn⟩ := h.present runId p hp
  exact ⟨p.key n, hn, q.keyed runId p hp⟩

theorem Faithful.popDispatchable (h : q.Faithful) {canRun : PendingExecution → Bool}
    (hguard : q.PopGuard (.popDispatchable canRun)) : (q.popDispatchable canRun).2.Faithful := by
  have hcovered := h.covered.step (.popDispatchable canRun) hguard
  cases ho : (q.popDispatchable canRun).1 with
  | none =>
    -- the heap is empty, so nothing was pending
    refine ⟨fun key hkey => ?_, fun runId p hp => ?_⟩
    · rw [(popDispatchable_none ho).1] at hkey
      cases hkey
    · obtain ⟨key, hkey, -⟩ := hcovered runId p hp
      rw [ReadyQueue.step, (popDispatchable_none ho).1] at hkey
      cases hkey
  | some =>
    obtain ⟨-, -, -, hpending, hkeys⟩ := popDispatchable_some ho
    refine h.shrink (fun runId e he => ?_) (popDispatchable_first ho).2 fun key hkey hlive => ?_
    · rw [hpending] at he
      exact (get_remove_eq_some.mp he).2
    · rw [hpending, get_remove] at hlive
      grind

/-! ## 3. Runs -/

theorem Faithful.step (h : q.Faithful) (op : Op) (hguard : q.OrderGuard op) :
    (q.step op).Faithful := by
  cases op with
  | insert => exact h.insert hguard
  | popDispatchable => exact h.popDispatchable hguard
  | removeOldestTrigger =>
    rw [ReadyQueue.step, ReadyQueue.removeOldestTrigger]
    split
    · exact h
    · exact h.shrink (fun _ _ => get_take_some) (fun _ hkey => hkey) fun _ hkey _ => hkey
  | removeNormalTriggers | removeJob =>
    exact h.shrink (fun _ _ => get_retain_some) (fun _ hkey => hkey) fun _ hkey _ => hkey
  | migrateJob =>
    exact Faithful.compactIfNeeded (h.migrated hguard rfl rfl)
  | clear => exact ⟨fun _ hkey => (by cases hkey), fun _ _ hp => by cases hp⟩
  | rehash entries => exact h.rehash entries

/-- **Dispatch in order**: in every run in which an inserted run has no key left in the heap, no
    migration lowers a priority and no call of `pop_dispatchable` meets a non-empty queue with
    nothing to run. -/
theorem dispatch_in_order (ops : List Op) (h : Along step OrderGuard new ops) :
    Throughout step DispatchOrdered new ops := by
  have hnew : new.Faithful := ⟨fun _ hkey => (by cases hkey), fun _ _ hp => by cases hp⟩
  exact throughout_of_invariant (fun _ op hq hguard => Faithful.step hq op hguard)
    (fun _ hq => hq.ordered) hnew h

/-- An urgent execution of Job 2, of the same batch as the other one. -/
def urgentExecution : PendingExecution :=
  { loneExecution with jobId := 2, runId := 8, priority := ⟨8, by decide⟩ }

def twoQueued : List Op := [.insert loneExecution, .insert urgentExecution]

theorem two_in_order : Throughout step DispatchOrdered new
    (twoQueued ++ [.migrateJob 1 2 ⟨10, by decide⟩, .popDispatchable fun _ => true]) := by
  refine dispatch_in_order _ ⟨fun _ hkey => (by cases hkey), fun key hkey => ?_,
    fun _ p _ _ => p.priority.le_ten, .inr ⟨7, _, rfl, rfl⟩, trivial⟩
  rw [mem_singleton.mp hkey]
  decide

/-- **An outdated key goes first**: Job 2 is given the priority 3, less than that of Job 1, and is
    dispatched before it; a queue that has nothing to run for a moment passes over Job 2 later. -/
theorem lowered_priority_first :
    (¬ Throughout step DispatchOrdered new (twoQueued ++ [.migrateJob 2 2 ⟨3, by decide⟩])) ∧
      ¬ Throughout step DispatchOrdered new [.insert urgentExecution,
        .popDispatchable fun _ => false, .insert loneExecution] := by
  constructor
  · intro h
    exact h _ (prefix_refl _) (fun _ => true) _ rfl 7 loneExecution rfl rfl (by decide)
  · intro h
    exact h _ (prefix_refl _) (fun _ => true) _ rfl 8 urgentExecution rfl rfl (by decide)

end ReadyQueue

end Smalux.Scheduler
