/-
  Subject:   Neighbours in a list, and filters of one.

  * `anyPair` -- whether two neighbours stand in a relation;
  * `anyPair_eq_false_iff` -- if none do, the list is a chain of the opposite;
  * `filter_eq_filter_iff` -- when two filters keep the same.
-/
import Mathlib.Data.List.Chain

namespace Lib

variable {α : Type}

/-- `windows(2).any(..)`. -/
def anyPair (p : α → α → Bool) : List α → Bool
  | a :: b :: rest => p a b || anyPair p (b :: rest)
  | [_] => false
  | [] => false

theorem anyPair_eq_false_iff {p : α → α → Bool} :
    ∀ {l : List α}, anyPair p l = false ↔ l.IsChain fun a b => p a b = false
  | [] => by simp [anyPair]
  | [_] => by simp [anyPair]
  | a :: b :: rest => by
    rw [anyPair, Bool.or_eq_false_iff, anyPair_eq_false_iff, List.isChain_cons_cons]

theorem filter_eq_filter_iff {p q : α → Bool} {l : List α} :
    l.filter p = l.filter q ↔ ∀ x ∈ l, p x = q x := by
  refine ⟨fun h x hx => ?_, List.filter_congr⟩
  have hiff : x ∈ l.filter p ↔ x ∈ l.filter q := by rw [h]
  rw [List.mem_filter, List.mem_filter] at hiff
  exact Bool.eq_iff_iff.mpr ⟨fun hp => (hiff.mp ⟨hx, hp⟩).2, fun hq => (hiff.mpr ⟨hx, hq⟩).2⟩

end Lib
