/-
  Subject:   Finite maps with an iteration order.

  A hash map of the modelled code is read three ways: by key, by size, and by iterating over its
  entries in an order nobody promises. A `Table` keeps all three: a list of entries whose keys do
  not repeat (`nodup`), so that the list is the content AND one possible iteration order.

  * `get_eq_some_iff` -- what is stored under a key is what the entry list holds there; every
    other lookup lemma comes from it;
  * `sumBy` -- the sum of a measure over the stored values, and how each operation moves it; sizes
    and counts are such sums;
  * `SameContent` -- the same entries in another order (what a rehash may do).
-/
import Mathlib.Data.List.Nodup
import Mathlib.Data.List.Perm.Basic
import Mathlib.Data.List.Count
import Mathlib.Algebra.Order.BigOperators.Group.List
import Mathlib.Algebra.Order.Group.Nat
import Mathlib.Algebra.GroupWithZero.Nat

namespace Lib

open List

/-- A finite map: entries in iteration order, no key twice. -/
structure Table (K V : Type) where
  entries : List (K × V)
  nodup : (entries.map Prod.fst).Nodup

namespace Table

variable {K V : Type} [DecidableEq K] {l : List (K × V)} {k : K} {t t' : Table K V} {v : V}

/-! ## 1. The operations -/

def empty : Table K V := ⟨[], nodup_nil⟩

/-- The value stored under `k`. -/
def get (t : Table K V) (k : K) : Option V :=
  (t.entries.find? (fun e => e.1 = k)).map Prod.snd

def contains (t : Table K V) (k : K) : Bool := (t.get k).isSome

def keys (t : Table K V) : List K := t.entries.map Prod.fst

def values (t : Table K V) : List V := t.entries.map Prod.snd

def len (t : Table K V) : Nat := t.entries.length

/-- How many stored values pass `p`. -/
def count (t : Table K V) (p : V → Bool) : Nat := t.values.countP p

/-- Change the value under `k`, if there is one. -/
def modify (t : Table K V) (k : K) (f : V → V) : Table K V where
  entries := t.entries.map (fun e => (e.1, if e.1 = k then f e.2 else e.2))
  nodup := by
    rw [map_map]
    exact t.nodup

/-- Keep the entries that pass `p`. -/
def retain (t : Table K V) (p : K → V → Bool) : Table K V where
  entries := t.entries.filter (fun e => p e.1 e.2)
  nodup := (List.Sublist.map Prod.fst (filter_sublist (l := t.entries))).nodup t.nodup

def remove (t : Table K V) (k : K) : Table K V := t.retain (fun k' _ => decide (k' ≠ k))

/-- Change every value. -/
def mapVals (t : Table K V) (f : V → V) : Table K V where
  entries := t.entries.map (fun e => (e.1, f e.2))
  nodup := by
    rw [map_map]
    exact t.nodup

theorem find_none_iff : l.find? (fun e => e.1 = k) = none ↔ k ∉ l.map Prod.fst := by
  simp only [List.find?_eq_none, decide_eq_true_eq, mem_map, not_exists, not_and]

theorem get_eq_none_iff : t.get k = none ↔ k ∉ t.keys := by
  unfold get keys
  rw [Option.map_eq_none_iff, find_none_iff]

/-- Store `v` under `k`: in place when the key is there, else at the end. -/
def insert (t : Table K V) (k : K) (v : V) : Table K V :=
  if h : t.get k = none then
    { entries := t.entries ++ [(k, v)]
      nodup := by
        rw [map_append, nodup_append]
        refine ⟨t.nodup, by simp, ?_⟩
        intro a ha b hb hab
        have hk : b = k := by simpa using hb
        subst hab hk
        exact get_eq_none_iff.mp h ha }
  else t.modify k (fun _ => v)

/-! ## 2. Lookups -/

theorem find_eq_some_iff : ∀ {l : List (K × V)}, (l.map Prod.fst).Nodup → ∀ {k : K} {v : V},
    (l.find? (fun e => e.1 = k)).map Prod.snd = some v ↔ (k, v) ∈ l
  | [], _, k, v => by simp
  | e :: l, hn, k, v => by
    simp only [map_cons, nodup_cons] at hn
    by_cases h : e.1 = k
    · rw [List.find?_cons_of_pos (by simpa using h)]
      constructor
      · intro hv
        have : e.2 = v := by simpa using hv
        subst h this
        exact mem_cons_self
      · intro hm
        rcases mem_cons.mp hm with he | hm'
        · rw [← he]; rfl
        · exact absurd (mem_map_of_mem hm') (h ▸ hn.1)
    · rw [List.find?_cons_of_neg (by simpa using h), find_eq_some_iff hn.2]
      constructor
      · exact mem_cons_of_mem _
      · intro hm
        rcases mem_cons.mp hm with he | hm'
        · exact absurd (congrArg Prod.fst he).symm h
        · exact hm'

/-- **What is stored under a key is what the entries hold there.** -/
theorem get_eq_some_iff : t.get k = some v ↔ (k, v) ∈ t.entries := find_eq_some_iff t.nodup

theorem mem_keys_iff : k ∈ t.keys ↔ ∃ v, t.get k = some v := by
  cases h : t.get k with
  | none => simpa using get_eq_none_iff.mp h
  | some =>
    simp only [Option.some.injEq, exists_eq', iff_true]
    exact mem_map_of_mem (get_eq_some_iff.mp h)

theorem mem_values_iff : v ∈ t.values ↔ ∃ k, t.get k = some v := by
  unfold values
  rw [mem_map]
  constructor
  · rintro ⟨⟨k, v'⟩, hm, rfl⟩
    exact ⟨k, get_eq_some_iff.mpr hm⟩
  · rintro ⟨k, hk⟩
    exact ⟨(k, v), get_eq_some_iff.mp hk, rfl⟩

theorem contains_iff : t.contains k = true ↔ ∃ v, t.get k = some v := by
  unfold contains
  rw [Option.isSome_iff_exists]

theorem contains_eq_false_iff : t.contains k = false ↔ t.get k = none := by
  unfold contains
  rw [Option.isSome_eq_false_iff, Option.isNone_iff_eq_none]

@[simp] theorem get_empty (k : K) : (empty : Table K V).get k = none := rfl

theorem get_retain (t : Table K V) (p : K → V → Bool) (k : K) :
    (t.retain p).get k = (t.get k).filter (p k) := by
  refine Option.ext fun v => ?_
  rw [get_eq_some_iff, Option.filter_eq_some_iff, get_eq_some_iff]
  simp [retain, mem_filter]

@[simp] theorem get_remove (t : Table K V) (k k' : K) :
    (t.remove k).get k' = if k' = k then none else t.get k' := by
  unfold remove
  rw [get_retain]
  by_cases h : k' = k
  · simp [h]
  · cases t.get k' <;> simp [h]

theorem get_foldl_remove (k : K) : ∀ (l : List K) (t : Table K V),
    (l.foldl remove t).get k = if k ∈ l then none else t.get k
  | [], _ => by simp
  | k' :: l, t => by
    rw [foldl_cons, get_foldl_remove k l, get_remove]
    by_cases h : k = k' <;> simp [h]

@[simp] theorem get_mapVals (t : Table K V) (f : V → V) (k : K) :
    (t.mapVals f).get k = (t.get k).map f := by
  refine Option.ext fun v => ?_
  simp [mapVals, get_eq_some_iff]

@[simp] theorem get_modify (t : Table K V) (k k' : K) (f : V → V) :
    (t.modify k f).get k' = if k' = k then (t.get k').map f else t.get k' := by
  refine Option.ext fun v => ?_
  rw [get_eq_some_iff]
  by_cases h : k' = k
  · subst h
    simp only [modify, mem_map, Prod.mk.injEq, ↓reduceIte, Option.map_eq_some_iff]
    constructor
    · rintro ⟨⟨a, b⟩, hm, rfl, hv⟩
      exact ⟨b, get_eq_some_iff.mpr hm, by simpa using hv⟩
    · rintro ⟨b, hb, rfl⟩
      exact ⟨(k', b), get_eq_some_iff.mp hb, rfl, by simp⟩
  · simp only [modify, mem_map, Prod.mk.injEq, h, ↓reduceIte, get_eq_some_iff]
    constructor
    · rintro ⟨⟨a, b⟩, hm, rfl, hv⟩
      simp only [h, ↓reduceIte] at hv
      exact hv ▸ hm
    · intro hm
      exact ⟨(k', v), hm, rfl, by simp [h]⟩

theorem get_remove_eq_some {k' : K} :
    (t.remove k).get k' = some v ↔ k' ≠ k ∧ t.get k' = some v := by
  by_cases h : k' = k <;> simp [h]

theorem get_modify_of_get (h : t.get k = some v) (f : V → V) :
    (t.modify k f).get k = some (f v) := by
  rw [get_modify, if_pos rfl, h]
  rfl

theorem get_modify_self {f : V → V} {w : V} (h : (t.modify k f).get k = some w) :
    ∃ v, t.get k = some v ∧ w = f v := by
  rw [get_modify, if_pos rfl] at h
  obtain ⟨v, hv, he⟩ := Option.map_eq_some_iff.mp h
  exact ⟨v, hv, he.symm⟩

@[simp] theorem get_insert (t : Table K V) (k k' : K) (v : V) :
    (t.insert k v).get k' = if k' = k then some v else t.get k' := by
  unfold insert
  split
  · rename_i h
    refine Option.ext fun w => ?_
    rw [get_eq_some_iff]
    by_cases hk : k' = k
    · subst hk
      have hnot : ∀ w, (k', w) ∉ t.entries := fun w hm => by
        rw [get_eq_some_iff.mpr hm] at h
        cases h
      simp [hnot, eq_comm]
    · simp [hk, get_eq_some_iff]
  · rename_i h
    by_cases hk : k' = k
    · subst hk
      obtain ⟨w, hw⟩ := Option.ne_none_iff_exists'.mp h
      simp [hw]
    · simp [hk]

theorem get_insert_eq_some {k' : K} {w : V} :
    (t.insert k v).get k' = some w ↔ (k' = k ∧ v = w) ∨ (k' ≠ k ∧ t.get k' = some w) := by
  by_cases h : k' = k <;> simp [h]

/-! ## 3. Sums and counts -/

/-- The sum of `f` over the stored values. -/
def sumBy (t : Table K V) (f : V → Nat) : Nat := (t.values.map f).sum

omit [DecidableEq K] in
theorem len_eq_sumBy (t : Table K V) : t.len = t.sumBy fun _ => 1 := by
  unfold len sumBy values
  rw [map_map]
  induction t.entries with
  | nil => rfl
  | cons e l ih =>
    rw [length_cons, map_cons, sum_cons, ih, Nat.add_comm]
    rfl

omit [DecidableEq K] in
theorem count_eq_sumBy (t : Table K V) (p : V → Bool) :
    t.count p = t.sumBy fun v => if p v then 1 else 0 := by
  unfold count sumBy
  induction t.values with
  | nil => rfl
  | cons v l ih =>
    rw [countP_cons, map_cons, sum_cons, ih, Nat.add_comm]

theorem sumBy_insert_new (h : t.get k = none) (v : V) (f : V → Nat) :
    (t.insert k v).sumBy f = t.sumBy f + f v := by
  simp [insert, h, sumBy, values]

/-- The entries split at the one under `k`. -/
theorem entries_split (h : t.get k = some v) :
    ∃ l r, t.entries = l ++ (k, v) :: r ∧ k ∉ l.map Prod.fst ∧ k ∉ r.map Prod.fst := by
  obtain ⟨l, r, he⟩ := append_of_mem (get_eq_some_iff.mp h)
  refine ⟨l, r, he, ?_, ?_⟩
  all_goals
    have hn := t.nodup
    rw [he, map_append, map_cons, nodup_append, nodup_cons] at hn
  · exact fun hk => hn.2.2 k hk k mem_cons_self rfl
  · exact hn.2.1.1

theorem filter_ne_of_not_mem (h : k ∉ l.map Prod.fst) :
    l.filter (fun e => decide (e.1 ≠ k)) = l := by
  refine filter_eq_self.mpr fun e he => ?_
  have : e.1 ≠ k := fun heq => h (heq ▸ mem_map_of_mem he)
  simpa using this

theorem map_modify_of_not_mem (h : k ∉ l.map Prod.fst) (g : V → V) :
    l.map (fun e => (e.1, if e.1 = k then g e.2 else e.2)) = l := by
  refine (map_congr_left fun e he => ?_).trans (map_id l)
  have : e.1 ≠ k := fun heq => h (heq ▸ mem_map_of_mem he)
  rw [if_neg this]
  rfl

/-- **What leaves the sum with a removed entry.** -/
theorem sumBy_remove (h : t.get k = some v) (f : V → Nat) :
    (t.remove k).sumBy f + f v = t.sumBy f := by
  obtain ⟨l, r, he, hl, hr⟩ := entries_split h
  have hremove : (t.remove k).entries = l ++ r := by
    show t.entries.filter (fun e => decide (e.1 ≠ k)) = l ++ r
    rw [he, filter_append, filter_cons, filter_ne_of_not_mem hl, filter_ne_of_not_mem hr]
    simp
  unfold sumBy values
  rw [hremove, he]
  simp only [map_append, map_cons, sum_append, sum_cons]
  omega

/-- Tables with the same keys are equally long. -/
theorem len_congr (h : ∀ k, t'.get k = none ↔ t.get k = none) : t'.len = t.len := by
  have hperm : t'.keys.Perm t.keys := by
    refine (perm_ext_iff_of_nodup t'.nodup t.nodup).mpr fun k => ?_
    exact not_iff_not.mp (get_eq_none_iff.symm.trans ((h k).trans get_eq_none_iff))
  simpa [keys, len] using hperm.length_eq

theorem len_insert_new (h : t.get k = none) (v : V) : (t.insert k v).len = t.len + 1 := by
  rw [len_eq_sumBy, len_eq_sumBy, sumBy_insert_new h]

theorem len_remove (h : t.get k = some v) : (t.remove k).len + 1 = t.len := by
  rw [len_eq_sumBy, len_eq_sumBy, sumBy_remove h]

/-- **What a changed entry changes in the sum.** -/
theorem sumBy_modify (h : t.get k = some v) (g : V → V) (f : V → Nat) :
    (t.modify k g).sumBy f + f v = t.sumBy f + f (g v) := by
  obtain ⟨l, r, he, hl, hr⟩ := entries_split h
  have hmodify : (t.modify k g).entries = l ++ (k, g v) :: r := by
    show t.entries.map (fun e => (e.1, if e.1 = k then g e.2 else e.2)) = _
    rw [he, map_append, map_cons, map_modify_of_not_mem hl, map_modify_of_not_mem hr]
    simp
  unfold sumBy values
  rw [hmodify, he]
  simp only [map_append, map_cons, sum_append, sum_cons]
  omega

theorem modify_of_none (h : t.get k = none) (g : V → V) : t.modify k g = t := by
  have he : (t.modify k g).entries = t.entries := map_modify_of_not_mem (get_eq_none_iff.mp h) g
  cases t
  simp only [modify, mk.injEq] at he ⊢
  exact he

theorem sumBy_modify_eq {g : V → V} {f : V → Nat} (h : ∀ v, f (g v) = f v) :
    (t.modify k g).sumBy f = t.sumBy f := by
  cases hk : t.get k with
  | none => rw [modify_of_none hk]
  | some v =>
    have := sumBy_modify hk g f
    have := h v
    omega

omit [DecidableEq K] in
theorem sumBy_retain_le (t : Table K V) (p : K → V → Bool) (f : V → Nat) :
    (t.retain p).sumBy f ≤ t.sumBy f :=
  List.Sublist.sum_le_sum (((filter_sublist).map Prod.snd).map f) (fun _ _ => Nat.zero_le _)

theorem sumBy_remove_le (t : Table K V) (k : K) (f : V → Nat) :
    (t.remove k).sumBy f ≤ t.sumBy f := sumBy_retain_le t _ f

omit [DecidableEq K] in
theorem sumBy_mapVals {g : V → V} {f : V → Nat} (h : ∀ v, f (g v) = f v) :
    (t.mapVals g).sumBy f = t.sumBy f := by
  unfold sumBy values mapVals
  rw [map_map, map_map, map_map]
  exact congrArg List.sum (map_congr_left fun e _ => h e.2)

/-- One if there is a value under `k`. -/
def holds (t : Table K V) (k : K) : Nat := if (t.get k).isSome then 1 else 0

theorem holds_insert_new (h : t.get k = none) (v : V) (k' : K) :
    (t.insert k v).holds k' = t.holds k' + if k = k' then 1 else 0 := by
  unfold holds
  by_cases he : k' = k
  · rw [he, h]
    simp
  · simp [he, Ne.symm he]

theorem holds_insert_le (t : Table K V) (k : K) (v : V) (k' : K) :
    (t.insert k v).holds k' ≤ t.holds k' + if k = k' then 1 else 0 := by
  unfold holds
  by_cases he : k' = k
  · simp [he]
  · simp [he, Ne.symm he]

theorem holds_remove (h : t.get k = some v) (k' : K) :
    (t.remove k).holds k' + (if k = k' then 1 else 0) = t.holds k' := by
  unfold holds
  by_cases he : k' = k
  · rw [he, h]
    simp
  · simp [he, Ne.symm he]

/-! ## 4. The same content in another order -/

/-- The same entries, possibly iterated in another order. -/
def SameContent (t t' : Table K V) : Prop := t.entries.Perm t'.entries

theorem SameContent.get_eq (h : t.SameContent t') (k : K) : t'.get k = t.get k := by
  refine Option.ext fun v => ?_
  rw [get_eq_some_iff, get_eq_some_iff]
  exact (h.mem_iff).symm

omit [DecidableEq K] in
theorem SameContent.sumBy_eq (h : t.SameContent t') (f : V → Nat) :
    t'.sumBy f = t.sumBy f := ((h.map Prod.snd).map f).sum_eq.symm

end Table

end Lib
