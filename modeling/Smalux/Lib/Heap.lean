/-
  Subject:   A max-heap, by what its operations answer.

  A binary heap is a bag whose `pop` takes a greatest element. The bag is a list here; `push` and
  `extend` are `::` and `++`, and `popMax` takes the greatest element by a comparison function.
  Which of two elements that compare equal comes first is not promised.
-/
import Mathlib.Data.List.Perm.Basic

namespace Lib

open List

variable {α : Type} {cmp : α → α → Ordering}

/-- A greatest element of the bag and the rest of it. -/
def popMax (cmp : α → α → Ordering) : List α → Option (α × List α)
  | [] => none
  | x :: xs =>
    match popMax cmp xs with
    | none => some (x, [])
    | some (m, rest) => if cmp x m = .lt then some (m, x :: rest) else some (x, m :: rest)

theorem popMax_eq_none_iff {l : List α} : popMax cmp l = none ↔ l = [] := by
  cases l with
  | nil => simp [popMax]
  | cons =>
    simp only [popMax, reduceCtorEq, iff_false]
    split
    · exact Option.some_ne_none _
    · split <;> exact Option.some_ne_none _

/-- **`popMax` loses nothing and adds nothing.** -/
theorem popMax_perm : ∀ {l : List α} {x : α} {rest : List α},
    popMax cmp l = some (x, rest) → l.Perm (x :: rest)
  | [], _, _, h => by cases h
  | y :: ys, x, rest, h => by
    simp only [popMax] at h
    split at h
    · rename_i hn
      cases h
      rw [popMax_eq_none_iff.mp hn]
    · rename_i m ms hm
      have hp := popMax_perm hm
      split at h
      · cases h
        exact (hp.cons y).trans (List.Perm.swap x y ms)
      · cases h
        exact hp.cons y

/-- **`popMax` takes a greatest element**, by a comparison that is asymmetric and whose negation is
    transitive. -/
theorem popMax_greatest (hasymm : ∀ x y, cmp x y = .lt → cmp y x ≠ .lt)
    (htrans : ∀ x y z, cmp x y ≠ .lt → cmp y z ≠ .lt → cmp x z ≠ .lt) :
    ∀ {l : List α} {x : α} {rest : List α}, popMax cmp l = some (x, rest) → ∀ y ∈ l, cmp x y ≠ .lt
  | [], _, _, h => by cases h
  | z :: zs, x, rest, h => by
    have hself : cmp x x ≠ .lt := fun he => hasymm x x he he
    simp only [popMax] at h
    intro y hy
    split at h
    · rename_i hn
      cases h
      rw [popMax_eq_none_iff.mp hn, mem_singleton] at hy
      exact hy ▸ hself
    · rename_i m ms hm
      have hgreatest := popMax_greatest hasymm htrans hm
      split at h
      · rename_i hlt
        cases h
        rcases mem_cons.mp hy with rfl | hy
        · exact hasymm _ _ hlt
        · exact hgreatest y hy
      · rename_i hge
        cases h
        rcases mem_cons.mp hy with rfl | hy
        · exact hself
        · exact htrans _ _ _ hge (hgreatest y hy)

end Lib
