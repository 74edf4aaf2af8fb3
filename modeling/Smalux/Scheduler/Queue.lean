/-
  Subject:   The queue of executions that are due but not started (queue.rs).

  `ReadyQueue` keeps the executions in an authoritative map (`pending`) and their order in a heap
  of keys. The heap is cleaned lazily: a removal leaves its key behind, a migration adds a second
  key, and `compactIfNeeded` rebuilds the heap once stale keys dominate.

  That the map files every execution under its own run id is a field of `ReadyQueue` (`keyed`),
  so no operation can file one elsewhere.
-/
import Smalux.Lib.Heap
import Smalux.Lib.Table
import Smalux.Scheduler.Model

namespace Smalux.Scheduler

open Lib List

/-! ## 1. Entries -/

inductive TimerKind where
  | normal
  | runNow
  | retry (runId : RunId) (scheduledAt : DateTime) (attempt : Nat)
  deriving DecidableEq, Repr

/-- An entry of the `DelayQueue`. -/
structure TimerEntry where
  jobId : JobId
  version : Nat
  runAt : DateTime
  kind : TimerKind
  deriving DecidableEq, Repr

inductive PendingKind where
  | normal
  | once
  | runNow
  | retry
  deriving DecidableEq, Repr

/-- Whether keep-latest and replace-oldest may drop the execution. -/
def PendingKind.isReplaceableTrigger (kind : PendingKind) : Bool := kind = .normal

/-- An execution that is due and not started. -/
structure PendingExecution where
  jobId : JobId
  version : Nat
  runId : RunId
  attempt : Nat
  scheduledAt : DateTime
  kind : PendingKind
  priority : JobPriority
  batchId : Nat
  deriving DecidableEq, Repr

structure ReadyKey where
  batchId : Nat
  priority : JobPriority
  scheduledAt : DateTime
  sequence : Nat
  runId : RunId
  deriving DecidableEq, Repr

/-- Older batch first, then higher priority, earlier planned time, earlier key; the heap pops the
    greatest, so all but the priority and the run id are compared the other way round. -/
def ReadyKey.cmp (self other : ReadyKey) : Ordering :=
  (compare other.batchId self.batchId).then <|
    (compare self.priority.value other.priority.value).then <|
      (compare other.scheduledAt self.scheduledAt).then <|
        (compare other.sequence self.sequence).then (compare self.runId other.runId)

theorem ReadyKey.cmp_lt_iff {a b : ReadyKey} : a.cmp b = .lt ↔ b.batchId < a.batchId ∨
    b.batchId = a.batchId ∧ (a.priority.value < b.priority.value ∨
      a.priority.value = b.priority.value ∧ (b.scheduledAt < a.scheduledAt ∨
        b.scheduledAt = a.scheduledAt ∧ (b.sequence < a.sequence ∨
          b.sequence = a.sequence ∧ a.runId < b.runId))) := by
  simp only [ReadyKey.cmp, Ordering.then_eq_lt, Std.compare_eq_lt, compare_eq_iff_eq]

theorem ReadyKey.cmp_asymm (a b : ReadyKey) (h : a.cmp b = .lt) : b.cmp a ≠ .lt := by
  rw [Ne, cmp_lt_iff]
  rw [cmp_lt_iff] at h
  grind

theorem ReadyKey.not_lt_trans (a b c : ReadyKey) (h : a.cmp b ≠ .lt) (h' : b.cmp c ≠ .lt) :
    a.cmp c ≠ .lt := by
  rw [Ne, cmp_lt_iff] at *
  grind

def PendingExecution.key (pending : PendingExecution) (sequence : Nat) : ReadyKey where
  batchId := pending.batchId
  priority := pending.priority
  scheduledAt := pending.scheduledAt
  sequence := sequence
  runId := pending.runId

/-! ## 2. The queue -/

structure ReadyQueue where
  heap : List ReadyKey
  pending : Table RunId PendingExecution
  sequence : Nat
  /-- every execution is filed under its own run id -/
  keyed : ∀ runId p, pending.get runId = some p → p.runId = runId

namespace ReadyQueue

variable {q : ReadyQueue} {runId : RunId} {p : PendingExecution} {jobId : JobId}

def new : ReadyQueue where
  heap := []
  pending := Table.empty
  sequence := 0
  keyed := by simp

def len (q : ReadyQueue) : Nat := q.pending.len

def countJob (q : ReadyQueue) (jobId : JobId) : Nat := q.pending.count (fun p => p.jobId = jobId)

/-- One key per execution, numbered on from `sequence`. -/
def pushKeys : List ReadyKey → Nat → List PendingExecution → List ReadyKey × Nat
  | heap, sequence, [] => (heap, sequence)
  | heap, sequence, p :: ps =>
    pushKeys (p.key (wrappingSucc sequence) :: heap) (wrappingSucc sequence) ps

/-- Rebuild the heap from the map once stale keys dominate. -/
def compactIfNeeded (q : ReadyQueue) : ReadyQueue :=
  if q.heap.length ≤ q.pending.len * 2 + 64 then q
  else
    { q with
      heap := (pushKeys [] q.sequence q.pending.values).1
      sequence := (pushKeys [] q.sequence q.pending.values).2 }

def insert (q : ReadyQueue) (pending : PendingExecution) : ReadyQueue :=
  compactIfNeeded
    { heap := pending.key (wrappingSucc q.sequence) :: q.heap
      pending := q.pending.insert pending.runId pending
      sequence := wrappingSucc q.sequence
      keyed := by
        intro runId p hp
        rw [Table.get_insert] at hp
        split at hp
        · rename_i h
          cases hp
          exact h.symm
        · exact q.keyed runId p hp }

/-- The loop of `pop_dispatchable`: what is selected, and the heap the call leaves behind. The
    keys of executions that cannot run now are held in `blocked`. -/
def popLoop (pending : Table RunId PendingExecution) (canRun : PendingExecution → Bool) :
    Nat → List ReadyKey → List ReadyKey → Option PendingExecution × List ReadyKey
  | 0, heap, _ => (none, heap)
  | fuel + 1, heap, blocked =>
    match popMax ReadyKey.cmp heap with
    -- `self.heap.pop()?` leaves the function: `blocked` is dropped here
    | none => (none, heap)
    | some (key, rest) =>
      match pending.get key.runId with
      | none => popLoop pending canRun fuel rest blocked
      | some p =>
        if canRun p then (some p, rest ++ blocked)
        else popLoop pending canRun fuel rest (blocked ++ [key])

/-- Keep the executions that pass `p`. -/
def retain (q : ReadyQueue) (p : PendingExecution → Bool) : ReadyQueue :=
  { q with
    pending := q.pending.retain (fun _ e => p e)
    keyed := by
      intro runId e he
      rw [Table.get_retain, Option.filter_eq_some_iff] at he
      exact q.keyed runId e he.1 }

/-- `pending.remove`: what was filed under `runId`, and the queue without it. -/
def take (q : ReadyQueue) (runId : RunId) : Option PendingExecution × ReadyQueue :=
  (q.pending.get runId,
   { q with
     pending := q.pending.remove runId
     keyed := by
       intro r e he
       exact q.keyed r e (Table.get_remove_eq_some.mp he).2 })

/-- The first execution in order that can run, taken out of the queue. -/
def popDispatchable (q : ReadyQueue) (canRun : PendingExecution → Bool) :
    Option PendingExecution × ReadyQueue :=
  match popLoop q.pending canRun q.heap.length q.heap [] with
  | (none, heap) => (none, { q with heap := heap })
  | (some p, heap) => (some p, (take { q with heap := heap } p.runId).2)

/-- `min_by_key` over the planned time: the first of the earliest. -/
def earliest : List PendingExecution → Option PendingExecution
  | [] => none
  | p :: ps =>
    match earliest ps with
    | none => some p
    | some m => if m.scheduledAt < p.scheduledAt then some m else some p

theorem earliest_mem : ∀ {runs : List PendingExecution} {p : PendingExecution},
    earliest runs = some p → p ∈ runs
  | [], _, h => by cases h
  | first :: rest, p, h => by
    unfold earliest at h
    split at h
    · cases h
      exact mem_cons_self
    · rename_i m hm
      split at h
      · cases h
        exact mem_cons_of_mem _ (earliest_mem hm)
      · cases h
        exact mem_cons_self

def replaceableOf (jobId : JobId) (p : PendingExecution) : Bool :=
  p.jobId = jobId && p.kind.isReplaceableTrigger

def removeOldestTrigger (q : ReadyQueue) (jobId : JobId) : Option PendingExecution × ReadyQueue :=
  match earliest (q.pending.values.filter (replaceableOf jobId)) with
  | none => (none, q)
  | some p => q.take p.runId

def removeNormalTriggers (q : ReadyQueue) (jobId : JobId) : List PendingExecution × ReadyQueue :=
  (q.pending.values.filter (replaceableOf jobId), q.retain (fun p => !replaceableOf jobId p))

def removeJob (q : ReadyQueue) (jobId : JobId) : List PendingExecution × ReadyQueue :=
  (q.pending.values.filter (fun p => p.jobId = jobId), q.retain (fun p => p.jobId ≠ jobId))

/-- `values_mut` over the executions of one Job. -/
def restamp (jobId : JobId) (version : Nat) (priority : JobPriority) (p : PendingExecution) :
    PendingExecution :=
  if p.jobId = jobId then { p with version := version, priority := priority } else p

theorem restamp_runId (jobId : JobId) (version : Nat) (priority : JobPriority)
    (p : PendingExecution) : (restamp jobId version priority p).runId = p.runId := by
  unfold restamp
  split <;> rfl

/-- Give the Job's executions the new version and priority, and a second key each. -/
def migrateJob (q : ReadyQueue) (jobId : JobId) (version : Nat) (priority : JobPriority) :
    ReadyQueue :=
  let pending := q.pending.mapVals (restamp jobId version priority)
  let keys := pushKeys q.heap q.sequence (pending.values.filter (fun p => p.jobId = jobId))
  compactIfNeeded
    { heap := keys.1
      pending := pending
      sequence := keys.2
      keyed := by
        intro runId p hp
        rw [Table.get_mapVals, Option.map_eq_some_iff] at hp
        obtain ⟨e, he, rfl⟩ := hp
        rw [restamp_runId]
        exact q.keyed runId e he }

def clear (q : ReadyQueue) : ReadyQueue :=
  { q with heap := [], pending := Table.empty, keyed := by simp }

/-- The map's iteration order is nobody's promise: another order of the same executions. -/
def rehash (q : ReadyQueue) (entries : List (RunId × PendingExecution)) : ReadyQueue :=
  if h : q.pending.entries.Perm entries then
    { q with
      pending := ⟨entries, ((h.map Prod.fst).nodup_iff).mp q.pending.nodup⟩
      keyed := by
        intro runId p hp
        rw [Table.get_eq_some_iff] at hp
        exact q.keyed runId p (Table.get_eq_some_iff.mpr (h.mem_iff.mpr hp)) }
  else q

/-! ## 3. Operations that only remove executions -/

theorem get_retain_some {f : PendingExecution → Bool} (h : (q.retain f).pending.get runId = some p) :
    q.pending.get runId = some p := by
  simp only [retain, Table.get_retain, Option.filter_eq_some_iff] at h
  exact h.1

theorem get_take_some {r : RunId} (h : (q.take r).2.pending.get runId = some p) :
    q.pending.get runId = some p := by
  simp only [take, Table.get_remove] at h
  split at h
  · cases h
  · exact h

theorem get_removeOldestTrigger_some
    (h : (q.removeOldestTrigger jobId).2.pending.get runId = some p) :
    q.pending.get runId = some p := by
  unfold removeOldestTrigger at h
  split at h
  · exact h
  · exact get_take_some h

@[simp] theorem pending_compactIfNeeded (q : ReadyQueue) :
    q.compactIfNeeded.pending = q.pending := by
  unfold compactIfNeeded
  split <;> rfl

@[simp] theorem pending_insert (q : ReadyQueue) (pending : PendingExecution) :
    (q.insert pending).pending = q.pending.insert pending.runId pending :=
  pending_compactIfNeeded _

/-- A new run adds one to the queue, and one to the count of its Job alone. -/
theorem len_insert_new (h : q.pending.get p.runId = none) : (q.insert p).len = q.len + 1 := by
  unfold len
  rw [pending_insert, Table.len_insert_new h]

theorem countJob_insert_new (h : q.pending.get p.runId = none) (jobId : JobId) :
    (q.insert p).countJob jobId = q.countJob jobId + if p.jobId = jobId then 1 else 0 := by
  unfold countJob
  rw [pending_insert, Table.count_eq_sumBy, Table.count_eq_sumBy, Table.sumBy_insert_new h]
  simp

/-- Migration brings in no execution. -/
theorem get_migrateJob_some {version : Nat} {priority : JobPriority}
    (h : (q.migrateJob jobId version priority).pending.get runId = some p) :
    ∃ p', q.pending.get runId = some p' ∧ p = restamp jobId version priority p' := by
  unfold migrateJob at h
  rw [pending_compactIfNeeded, Table.get_mapVals] at h
  obtain ⟨p', hp', he⟩ := Option.map_eq_some_iff.mp h
  exact ⟨p', hp', he.symm⟩

/-! ## 4. The two exits of `pop_dispatchable` -/

section Loop

variable {pending : Table RunId PendingExecution} {canRun : PendingExecution → Bool}

/-- The loop answers nothing: the heap is empty and none of its keys led to a runnable one. -/
theorem popLoop_none : ∀ {fuel : Nat} {heap blocked heap' : List ReadyKey},
    popLoop pending canRun fuel heap blocked = (none, heap') → heap.length ≤ fuel →
    heap' = [] ∧ ∀ key ∈ heap, ∀ p, pending.get key.runId = some p → canRun p = false
  | 0, heap, blocked, heap', h, hf => by
    have hn : heap = [] := length_eq_zero_iff.mp (Nat.le_zero.mp hf)
    subst hn
    cases h
    exact ⟨rfl, by simp⟩
  | fuel + 1, heap, blocked, heap', h, hf => by
    simp only [popLoop] at h
    split at h
    · rename_i hp
      have hn := popMax_eq_none_iff.mp hp
      subst hn
      cases h
      exact ⟨rfl, by simp⟩
    · rename_i key rest hp
      have hperm := popMax_perm hp
      have hl : rest.length ≤ fuel := by
        have := hperm.length_eq
        simp only [length_cons] at this
        omega
      split at h
      · rename_i hg
        obtain ⟨he, hall⟩ := popLoop_none h hl
        refine ⟨he, fun k hk p hkp => ?_⟩
        rcases mem_cons.mp (hperm.mem_iff.mp hk) with rfl | hr
        · rw [hg] at hkp
          cases hkp
        · exact hall k hr p hkp
      · rename_i p hg
        split at h
        · cases h
        · rename_i hc
          obtain ⟨he, hall⟩ := popLoop_none h hl
          refine ⟨he, fun k hk p' hkp => ?_⟩
          rcases mem_cons.mp (hperm.mem_iff.mp hk) with rfl | hr
          · rw [hg] at hkp
            cases hkp
            simpa using hc
          · exact hall k hr p' hkp

/-- The greatest key that leads to an execution which can run leads to `p`. -/
def LeadsTo (pending : Table RunId PendingExecution) (canRun : PendingExecution → Bool)
    (heap : List ReadyKey) (p : PendingExecution) : Prop :=
  ∃ key ∈ heap, pending.get key.runId = some p ∧ ∀ k ∈ heap, key.cmp k = .lt →
    ∀ e, pending.get k.runId = some e → canRun e = false

/-- The loop selects `p`: it can run, a key of the heap led to it, and every other live key,
    popped or set aside, is back in the heap. -/
theorem popLoop_some : ∀ {fuel : Nat} {heap blocked heap' : List ReadyKey} {p : PendingExecution},
    popLoop pending canRun fuel heap blocked = (some p, heap') →
    canRun p = true ∧ LeadsTo pending canRun heap p ∧ (∀ key ∈ heap', key ∈ heap ++ blocked) ∧
      ∀ key ∈ heap ++ blocked, pending.get key.runId ≠ none →
        key ∈ heap' ∨ pending.get key.runId = some p
  | 0, heap, blocked, heap', p, h => by cases h
  | fuel + 1, heap, blocked, heap', p, h => by
    simp only [popLoop] at h
    split at h
    · cases h
    · rename_i key rest hp
      have hmem : ∀ k, k ∈ heap ↔ k = key ∨ k ∈ rest := fun k => by
        rw [(popMax_perm hp).mem_iff, mem_cons]
      split at h
      · rename_i hg
        obtain ⟨hc, ⟨k, hk, hkp, hfirst⟩, hback, hall⟩ := popLoop_some h
        refine ⟨hc, ⟨k, by grind, hkp, fun k' hk' hlt e he => ?_⟩, by grind, by grind⟩
        rcases (hmem k').mp hk' with rfl | hr
        · rw [hg] at he
          cases he
        · exact hfirst k' hr hlt e he
      · rename_i p' hg
        split at h
        · rename_i hc
          cases h
          refine ⟨hc, ⟨key, by grind, hg, fun k hk hlt => ?_⟩, by grind, by grind⟩
          exact absurd hlt (popMax_greatest ReadyKey.cmp_asymm ReadyKey.not_lt_trans hp k hk)
        · rename_i hno
          obtain ⟨hc, ⟨k, hk, hkp, hfirst⟩, hback, hall⟩ := popLoop_some h
          refine ⟨hc, ⟨k, by grind, hkp, fun k' hk' hlt e he => ?_⟩, by grind, by grind⟩
          rcases (hmem k').mp hk' with rfl | hr
          · rw [hg] at he
            cases he
            exact Bool.eq_false_iff.mpr hno
          · exact hfirst k' hr hlt e he

end Loop

theorem popDispatchable_none {canRun : PendingExecution → Bool}
    (h : (q.popDispatchable canRun).1 = none) :
    (q.popDispatchable canRun).2.heap = [] ∧ (q.popDispatchable canRun).2.pending = q.pending ∧
      ∀ key ∈ q.heap, ∀ p, q.pending.get key.runId = some p → canRun p = false := by
  unfold popDispatchable at h ⊢
  split at h
  · rename_i heap hl
    obtain ⟨he, hall⟩ := popLoop_none hl (Nat.le_refl _)
    exact ⟨he, rfl, hall⟩
  · cases h

theorem popDispatchable_some {canRun : PendingExecution → Bool}
    (h : (q.popDispatchable canRun).1 = some p) :
    canRun p = true ∧ q.pending.get p.runId = some p ∧ (∃ key ∈ q.heap, key.runId = p.runId) ∧
      (q.popDispatchable canRun).2.pending = q.pending.remove p.runId ∧
      ∀ key ∈ q.heap, q.pending.get key.runId ≠ none →
        key ∈ (q.popDispatchable canRun).2.heap ∨ key.runId = p.runId := by
  unfold popDispatchable at h ⊢
  split at h
  · cases h
  · rename_i p' heap hl
    cases h
    obtain ⟨hc, ⟨key, hk, hkp, -⟩, -, hall⟩ := popLoop_some hl
    have hid : ∀ k : ReadyKey, q.pending.get k.runId = some p → k.runId = p.runId :=
      fun k hk => (q.keyed _ _ hk).symm
    refine ⟨hc, hid key hkp ▸ hkp, ⟨key, hk, hid key hkp⟩, rfl, fun k hkm hne => ?_⟩
    rcases hall k (mem_append_left _ hkm) hne with hm | hp
    · exact .inl hm
    · exact .inr (hid k hp)

theorem popDispatchable_first {canRun : PendingExecution → Bool}
    (h : (q.popDispatchable canRun).1 = some p) : LeadsTo q.pending canRun q.heap p ∧
      ∀ key ∈ (q.popDispatchable canRun).2.heap, key ∈ q.heap := by
  unfold popDispatchable at h ⊢
  split at h
  · cases h
  · rename_i p' heap hl
    cases h
    obtain ⟨-, hleads, hback, -⟩ := popLoop_some hl
    exact ⟨hleads, fun key hk => by simpa using hback key hk⟩

end ReadyQueue

end Smalux.Scheduler
