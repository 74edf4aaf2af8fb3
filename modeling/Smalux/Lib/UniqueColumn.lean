/-
  Subject:   Tables with a unique index.

  A column of a table is a function of its rows; the index says that no two rows agree in it.

  * `Table.UniqueBy` -- the index, and how the operations of a table keep it;
  * `UniqueBy.findBy_eq_some_iff` -- with the index, a search in the column is a lookup.
-/
import Smalux.Lib.Table

namespace Lib.Table

variable {K V C : Type} [DecidableEq K] {col : V → C} {t : Table K V} {k : K} {c : C} {v : V}

/-! ## 1. The index -/

/-- No two rows agree in the column. -/
def UniqueBy (col : V → C) (t : Table K V) : Prop :=
  ∀ i j v w, t.get i = some v → t.get j = some w → col v = col w → i = j

theorem UniqueBy.empty : (Table.empty : Table K V).UniqueBy col := by
  intro i j v w hv
  cases hv

theorem UniqueBy.modify (h : t.UniqueBy col) {f : V → V} (hf : ∀ v, col (f v) = col v) :
    (t.modify k f).UniqueBy col := by
  have hsame : ∀ i v, (t.modify k f).get i = some v → ∃ v', t.get i = some v' ∧ col v' = col v := by
    intro i v hv
    rw [get_modify] at hv
    split at hv
    · obtain ⟨v', hv', rfl⟩ := Option.map_eq_some_iff.mp hv
      exact ⟨v', hv', (hf v').symm⟩
    · exact ⟨v, hv, rfl⟩
  intro i j a b ha hb hab
  obtain ⟨a', ha', hca⟩ := hsame i a ha
  obtain ⟨b', hb', hcb⟩ := hsame j b hb
  exact h i j a' b' ha' hb' (hca.trans (hab.trans hcb.symm))

/-- Fewer rows. -/
theorem UniqueBy.anti {t' : Table K V} (h : t.UniqueBy col)
    (hsub : ∀ i v, t'.get i = some v → t.get i = some v) : t'.UniqueBy col :=
  fun i j a b ha hb hab => h i j a b (hsub i a ha) (hsub j b hb) hab

theorem UniqueBy.retain (h : t.UniqueBy col) (p : K → V → Bool) : (t.retain p).UniqueBy col := by
  refine h.anti fun i v hv => ?_
  rw [get_retain, Option.filter_eq_some_iff] at hv
  exact hv.1

theorem UniqueBy.remove (h : t.UniqueBy col) (k : K) : (t.remove k).UniqueBy col := h.retain _

/-! ## 2. Searches in a column -/

variable [DecidableEq C]

/-- A row with this value in the column. -/
def findBy (t : Table K V) (col : V → C) (c : C) : Option (K × V) :=
  t.entries.find? fun e => col e.2 = c

theorem findBy_some (h : t.findBy col c = some (k, v)) : t.get k = some v ∧ col v = c := by
  refine ⟨get_eq_some_iff.mpr (List.mem_of_find?_eq_some h), ?_⟩
  simpa using List.find?_some h

theorem findBy_eq_none_iff : t.findBy col c = none ↔ ∀ k v, t.get k = some v → col v ≠ c := by
  unfold findBy
  rw [List.find?_eq_none]
  constructor
  · intro h k v hv hc
    exact h _ (get_eq_some_iff.mp hv) (by simpa using hc)
  · intro h e he hc
    exact h e.1 e.2 (get_eq_some_iff.mpr he) (by simpa using hc)

theorem UniqueBy.findBy_eq_some_iff (h : t.UniqueBy col) :
    t.findBy col c = some (k, v) ↔ t.get k = some v ∧ col v = c := by
  refine ⟨findBy_some, fun ⟨hv, hc⟩ => ?_⟩
  cases hf : t.findBy col c with
  | none => exact absurd hc (findBy_eq_none_iff.mp hf k v hv)
  | some e =>
    obtain ⟨hget, hcol⟩ := findBy_some hf
    have hk : e.1 = k := h _ _ _ _ hget hv (hcol.trans hc.symm)
    rw [hk, hv] at hget
    rw [Option.some.injEq, Prod.ext_iff]
    exact ⟨hk, (Option.some.inj hget).symm⟩

theorem UniqueBy.insert (h : t.UniqueBy col) (hfree : t.findBy col (col v) = none) :
    (t.insert k v).UniqueBy col := by
  have hnew := findBy_eq_none_iff.mp hfree
  intro i j a b ha hb hab
  rw [get_insert] at ha hb
  split at ha <;> split at hb
  · rename_i hi hj
    exact hi.trans hj.symm
  · cases ha
    exact absurd hab.symm (hnew j b hb)
  · cases hb
    exact absurd hab (hnew i a ha)
  · exact h i j a b ha hb hab

end Lib.Table
