/-
  Subject:   Any number of processes over one shared state, in every interleaving.

  Each member of a fleet has a state of its own; a step is one member's action on the shared state
  and its own. Nothing orders the members.

  * `Fleet.Holds` -- a property of the shared state, and one of each member in view of it;
  * `Fleet.Holds.step` -- kept by a step if the acting member keeps both and nobody else's property
    depends on what it changed.
-/
import Mathlib.Logic.Function.Basic
import Smalux.Lib.Run

namespace Lib

/-- The shared state and the members' own. -/
structure Fleet (I G L : Type) where
  shared : G
  members : I → L

namespace Fleet

variable {I G L A : Type} [DecidableEq I] (act : G → L → A → G × L)

/-- One action of one member. -/
def step (s : Fleet I G L) (move : I × A) : Fleet I G L :=
  { shared := (act s.shared (s.members move.1) move.2).1
    members := Function.update s.members move.1 (act s.shared (s.members move.1) move.2).2 }

/-- A property of the shared state and one of every member in view of it. -/
structure Holds (global : G → Prop) (own : I → G → L → Prop) (s : Fleet I G L) : Prop where
  shared : global s.shared
  members : ∀ i, own i s.shared (s.members i)

variable {act} {global : G → Prop} {own : I → G → L → Prop} {ok : Fleet I G L → I × A → Prop}

@[simp] theorem step_members_self (s : Fleet I G L) (i : I) (a : A) :
    (s.step act (i, a)).members i = (act s.shared (s.members i) a).2 :=
  Function.update_self ..

theorem step_members_other (s : Fleet I G L) {i j : I} (h : j ≠ i) (a : A) :
    (s.step act (i, a)).members j = s.members j :=
  Function.update_of_ne h ..

/-- **The rule for one step.** -/
theorem Holds.step {s : Fleet I G L} {i : I} {a : A} (hi : Holds global own s)
    (hglobal : global (act s.shared (s.members i) a).1)
    (hown : own i (act s.shared (s.members i) a).1 (act s.shared (s.members i) a).2)
    (hothers : ∀ j l, j ≠ i → own j s.shared l → own j (act s.shared (s.members i) a).1 l) :
    Holds global own (s.step act (i, a)) := by
  refine ⟨hglobal, fun j => ?_⟩
  by_cases h : j = i
  · subst h
    rw [step_members_self]
    exact hown
  · rw [step_members_other s h]
    exact hothers j _ h (hi.members j)

end Fleet

end Lib
