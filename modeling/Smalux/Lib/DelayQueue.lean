/-
  Subject:   A timer queue whose entries are addressed by keys.

  The contract of a delay queue as its users rely on it: a key is handed out once, an entry that
  expired or was removed leaves a dead key behind, and removing a dead key does nothing. WHEN an
  entry expires is decided outside; the queue only says which entries can.

  That every live key was handed out before is a field of the queue (`fresh`), so the next key is
  always a new one.
-/
import Smalux.Lib.Table

namespace Lib

open List

structure DelayQueue (V : Type) where
  entries : Table Nat V
  nextKey : Nat
  fresh : ∀ key v, entries.get key = some v → key < nextKey

namespace DelayQueue

variable {V : Type} {q : DelayQueue V} {key : Nat} {α : Type}

def new : DelayQueue V where
  entries := Table.empty
  nextKey := 0
  fresh := by simp

/-- The entry a live key stands for. -/
def get (q : DelayQueue V) (key : Nat) : Option V := q.entries.get key

def contains (q : DelayQueue V) (key : Nat) : Bool := q.entries.contains key

/-- Add an entry; the queue with it. Its key is `q.nextKey`. -/
def insertAt (q : DelayQueue V) (v : V) : DelayQueue V where
  entries := q.entries.insert q.nextKey v
  nextKey := q.nextKey + 1
  fresh := by
    intro key w hw
    rw [Table.get_insert] at hw
    split at hw
    · omega
    · have := q.fresh key w hw
      omega

/-- Remove the entry of a key; a dead key removes nothing. -/
def tryRemove (q : DelayQueue V) (key : Nat) : DelayQueue V where
  entries := q.entries.remove key
  nextKey := q.nextKey
  fresh := by
    intro k w hw
    exact q.fresh k w (Table.get_remove_eq_some.mp hw).2

/-- Remove what an optional key stands for, if anything. -/
def removeKey (q : DelayQueue V) : Option Nat → DelayQueue V
  | none => q
  | some key => q.tryRemove key

@[simp] theorem get_insertAt (q : DelayQueue V) (v : V) (key : Nat) :
    (q.insertAt v).get key = if key = q.nextKey then some v else q.get key :=
  Table.get_insert q.entries q.nextKey key v

@[simp] theorem get_tryRemove (q : DelayQueue V) (key k : Nat) :
    (q.tryRemove key).get k = if k = key then none else q.get k :=
  Table.get_remove q.entries key k

@[simp] theorem get_removeKey (q : DelayQueue V) (key : Option Nat) (k : Nat) :
    (q.removeKey key).get k = if key = some k then none else q.get k := by
  cases key with
  | none => simp [removeKey]
  | some =>
    rw [removeKey, get_tryRemove]
    simp [eq_comm]

@[simp] theorem nextKey_removeKey (q : DelayQueue V) (key : Option Nat) :
    (q.removeKey key).nextKey = q.nextKey := by
  cases key <;> rfl

theorem get_nextKey (q : DelayQueue V) : q.get q.nextKey = none := by
  cases h : q.get q.nextKey with
  | none => rfl
  | some v => exact absurd (q.fresh _ v h) (Nat.lt_irrefl _)

/-- An entry takes the place of another: what is in the queue then. -/
theorem get_replace {old : Option Nat} {v w : V} : ((q.removeKey old).insertAt v).get key = some w ↔
      (key = q.nextKey ∧ w = v) ∨ (old ≠ some key ∧ q.get key = some w) := by
  by_cases hnew : key = q.nextKey
  · simp [hnew, get_nextKey, eq_comm]
  · by_cases hold : old = some key <;> simp [hnew, hold]

/-- Removing several keys. -/
theorem get_removeAll (f : α → Nat) (k : Nat) : ∀ (l : List α) (q : DelayQueue V),
    (l.foldl (fun q x => q.tryRemove (f x)) q).get k = if k ∈ l.map f then none else q.get k
  | [], q => by simp
  | x :: l, q => by
    rw [foldl_cons, get_removeAll f k l, get_tryRemove]
    by_cases h : k = f x
    · simp [h]
    · simp [h]

theorem nextKey_removeAll (f : α → Nat) : ∀ (l : List α) (q : DelayQueue V),
    (l.foldl (fun q x => q.tryRemove (f x)) q).nextKey = q.nextKey
  | [], _ => rfl
  | x :: l, q => by
    rw [foldl_cons, nextKey_removeAll f l]
    rfl

theorem lt_nextKey {v : V} (h : q.get key = some v) : key < q.nextKey := q.fresh key v h

theorem contains_iff : q.contains key = true ↔ ∃ v, q.get key = some v := Table.contains_iff

@[simp] theorem nextKey_insertAt (q : DelayQueue V) (v : V) :
    (q.insertAt v).nextKey = q.nextKey + 1 := rfl

/-- The sum of `f` over the entries of the queue. -/
def sumBy (q : DelayQueue V) (f : V → Nat) : Nat := q.entries.sumBy f

@[simp] theorem sumBy_insertAt (q : DelayQueue V) (v : V) (f : V → Nat) :
    (q.insertAt v).sumBy f = q.sumBy f + f v := Table.sumBy_insert_new q.get_nextKey v f

theorem sumBy_tryRemove {v : V} (h : q.get key = some v) (f : V → Nat) :
    (q.tryRemove key).sumBy f + f v = q.sumBy f := Table.sumBy_remove h f

theorem sumBy_tryRemove_le (q : DelayQueue V) (key : Nat) (f : V → Nat) :
    (q.tryRemove key).sumBy f ≤ q.sumBy f := Table.sumBy_remove_le q.entries key f

theorem sumBy_removeKey_le (q : DelayQueue V) (key : Option Nat) (f : V → Nat) :
    (q.removeKey key).sumBy f ≤ q.sumBy f := by
  cases key with
  | none => exact Nat.le_refl _
  | some key => exact sumBy_tryRemove_le q key f

theorem sumBy_removeAll_le (g : α → Nat) (f : V → Nat) : ∀ (l : List α) (q : DelayQueue V),
      (l.foldl (fun q x => q.tryRemove (g x)) q).sumBy f ≤ q.sumBy f
  | [], _ => Nat.le_refl _
  | x :: l, q => by
    have h := sumBy_removeAll_le g f l (q.tryRemove (g x))
    have hx := sumBy_tryRemove_le q (g x) f
    rw [foldl_cons]
    omega

end DelayQueue

end Lib
