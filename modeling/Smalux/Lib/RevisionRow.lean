/-
  Subject:   A row that holds a revision number, and the statements that move it on.

  A document is replaced as a whole and has a row with its revision. The caller may say which revision
  it expects; then the row is claimed before anything else is written, by an `INSERT` if there is none
  and by a conditional `UPDATE` if there is one. Without an expected revision the row is written at
  the end, whatever it holds by then.
-/
import Smalux.Lib.ReadCommitted

namespace Lib

/-! ## 1. Statements on the row -/

inductive RowStatement where
  | find
  /-- `INSERT .. ON CONFLICT DO NOTHING` -/
  | insertIfAbsent (revision : Nat)
  /-- `UPDATE .. WHERE revision = expected` -/
  | updateWhere (expected revision : Nat)
  | insert (revision : Nat)
  /-- `UPDATE` of the row that was read before, by its key -/
  | update (previous revision : Nat)
  deriving DecidableEq, Repr

namespace RowStatement

/-- The row; whether the database accepts it; how many rows were updated. -/
def Answer : RowStatement → Type
  | .find => Option Nat
  | .insertIfAbsent _ => Bool
  | .updateWhere _ _ => Nat
  | .insert _ => Bool
  | .update _ _ => Bool

def answer (row : Option Nat) : (q : RowStatement) → q.Answer
  | .find => row
  | .insertIfAbsent _ => row.isNone
  | .updateWhere expected _ => if row = some expected then (1 : Nat) else (0 : Nat)
  | .insert _ => row.isNone
  | .update _ _ => row.isSome

/-- The revision that is written, if any. -/
@[simp] def written (row : Option Nat) : RowStatement → Option Nat
  | .find => none
  | .insertIfAbsent revision | .insert revision => if row.isNone then some revision else none
  | .updateWhere expected revision => if row = some expected then some revision else none
  | .update _ revision => if row.isSome then some revision else none

/-- An unconditional update finds the row as it was read. -/
def Fair (row : Option Nat) : RowStatement → Prop
  | .update previous _ => row = some previous
  | _ => True

instance Fair.decidable (row : Option Nat) : (q : RowStatement) → Decidable (q.Fair row)
  | .update previous _ => inferInstanceAs (Decidable (row = some previous))
  | .find | .insertIfAbsent _ | .updateWhere _ _ | .insert _ => .isTrue trivial

end RowStatement

/-- Revisions that never repeat, the missing row included. -/
def rowVersion : Option Nat → Nat
  | none => 0
  | some revision => revision + 1

/-! ## 2. The row in a database -/

open Transaction ReadCommitted

section Row

variable {ε Q D W K : Type} {A : Q → Type}

/-- A row with a revision in the database `E`: how it is read and written, and that its statements do
    what they say. -/
structure RevisionRow (ε : Type) (E : Engine Q A D W K) where
  key : K
  get : D → Option Nat
  set : D → Nat → D
  ask : (q : RowStatement) → Transaction ε Q A q.Answer
  /-- the condition under which the statements of this database are executed -/
  fair : D → Q → Prop
  conflict : Nat → Nat → ε
  refused : ε
  exec_ask : ∀ (q : RowStatement) (d : D), (ask q).exec E d =
    (.ok (q.answer (get d)), ((q.written (get d)).elim d (set d)))
  claims_ask : ∀ {β : Type} (q : RowStatement) (f : q.Answer → Transaction ε Q A β) (v : Nat),
    (∀ d revision, q.written (get d) = some revision → q.Fair (get d) → rowVersion (get d) = v) →
    (∀ d, q.written (get d) = none →
      Claims E (fun d => rowVersion (get d)) key fair v (f (q.answer (get d)))) →
    Claims E (fun d => rowVersion (get d)) key fair v (ask q >>= f)

namespace RevisionRow

variable {E : Engine Q A D W K} (R : RevisionRow ε E)

section

variable (previous : Option Nat) (revision : Nat)

/-- The version that is claimed. -/
def version (d : D) : Nat := rowVersion (R.get d)

def find : Transaction ε Q A (Option Nat) := R.ask .find

def insertIfAbsent (revision : Nat) : Transaction ε Q A Bool := R.ask (.insertIfAbsent revision)

def updateWhere (expected revision : Nat) : Transaction ε Q A Nat :=
  R.ask (.updateWhere expected revision)

def insert (revision : Nat) : Transaction ε Q A Bool := R.ask (.insert revision)

def update (previous revision : Nat) : Transaction ε Q A Bool := R.ask (.update previous revision)

/-! ## 3. The parts of a replacement -/

/-- Somebody else was faster. -/
def lose (expected : Nat) : Transaction ε Q A Unit := do
  let actual ← R.find
  .failed (R.conflict expected (actual.getD 0))

/-- The first row: there is nothing yet that could be updated. -/
def create : Transaction ε Q A Unit := do
  let inserted ← R.insertIfAbsent revision
  if inserted then return () else R.lose 0

/-- Move the revision on if it is still the expected one. -/
def advance (expected revision : Nat) : Transaction ε Q A Unit := do
  let rowsAffected ← R.updateWhere expected revision
  if rowsAffected = 1 then return () else R.lose expected

def createIfFirst (expected : Option Nat) (revision : Nat) : Transaction ε Q A Unit :=
  if expected = some 0 ∧ previous = none then R.create revision else return ()

def advanceIfExpected (expected : Option Nat) (revision : Nat) : Transaction ε Q A Unit :=
  match expected, previous with
  | some expected, some _ => R.advance expected revision
  | _, _ => return ()

/-- Without an expected revision, the row is written at the end. -/
def publish (expected : Option Nat) (revision : Nat) : Transaction ε Q A Unit :=
  match previous with
  | some previous =>
    if expected.isNone then do
      let ok ← R.update previous revision
      if ok then return () else .failed R.refused
    else return ()
  | none =>
    if expected = some 0 then return ()
    else do
      let ok ← R.insert revision
      if ok then return () else .failed R.refused

@[simp] theorem createIfFirst_none :
    R.createIfFirst previous none revision = pure () := if_neg (by simp)

@[simp] theorem createIfFirst_some (previous : Nat) (expected : Option Nat) (revision : Nat) :
    R.createIfFirst (some previous) expected revision = pure () := if_neg (by simp)

@[simp] theorem advanceIfExpected_none : R.advanceIfExpected previous none revision = pure () := rfl

@[simp] theorem advanceIfExpected_some (previous expected revision : Nat) :
    R.advanceIfExpected (some previous) (some expected) revision = R.advance expected revision := rfl

/-! ## 4. What they have done -/

end

variable {R} {d d' : D} {previous expected : Option Nat} {revision : Nat}

theorem lose_not_ok {expected : Nat} {value : Unit} :
    (R.lose expected).exec E d ≠ (.ok value, d') := by
  intro h
  obtain ⟨actual, between, _, hrest⟩ := bind_ok_iff.mp h
  cases hrest

theorem create_ok (h : (R.create revision).exec E d = (.ok (), d')) : d' = R.set d revision := by
  obtain ⟨inserted, between, hinsert, hrest⟩ := bind_ok_iff.mp h
  cases (R.exec_ask (.insertIfAbsent revision) d).symm.trans hinsert
  split at hrest
  · rename_i hnone
    have hget : (R.get d).isNone = true := hnone
    cases hrest
    simp [hget]
  · exact absurd hrest lose_not_ok

theorem advance_ok {expected : Nat} (h : (R.advance expected revision).exec E d = (.ok (), d')) :
    d' = R.set d revision := by
  obtain ⟨rows, between, hupdate, hrest⟩ := bind_ok_iff.mp h
  cases (R.exec_ask (.updateWhere expected revision) d).symm.trans hupdate
  split at hrest
  · rename_i hone
    have hget : (if R.get d = some expected then 1 else 0) = 1 := hone
    cases hrest
    by_cases hexpected : R.get d = some expected
    · simp [hexpected]
    · rw [if_neg hexpected] at hget
      cases hget
  · exact absurd hrest lose_not_ok

theorem createIfFirst_ok (h : (R.createIfFirst previous expected revision).exec E d = (.ok (), d')) :
    d' = if expected = some 0 ∧ previous = none then R.set d revision else d := by
  unfold createIfFirst at h
  split at h
  · rename_i hfirst
    rw [if_pos hfirst]
    exact create_ok h
  · rename_i hfirst
    rw [if_neg hfirst]
    cases h
    rfl

theorem advanceIfExpected_ok
    (h : (R.advanceIfExpected previous expected revision).exec E d = (.ok (), d')) :
    d' = if expected.isSome ∧ previous.isSome then R.set d revision else d := by
  cases expected with
  | none =>
    cases h
    rfl
  | some =>
    cases previous with
    | none =>
      cases h
      rfl
    | some => exact advance_ok h

/-- The condition under which a replacement goes on. -/
def Expects (previous expected : Option Nat) : Prop :=
  expected.any (· ≠ previous.getD 0) = false

theorem Expects.zero {expected : Nat} (h : Expects none (some expected)) : expected = 0 := by
  simpa [Expects] using h

theorem Expects.eq {previous expected : Nat} (h : Expects (some previous) (some expected)) :
    expected = previous := by
  simpa [Expects] using h

/-- With an expected revision, exactly one of the two statements has written the row: first the
    `INSERT`, then the `UPDATE`. -/
theorem claimed_of_create {first : Nat} {created : D} (hexpected : Expects (R.get d) expected)
    (hfirst : R.get d = none → revision = first)
    (hcreated : created = if expected = some 0 ∧ R.get d = none then R.set d first else d)
    (hclaimed : d' = if expected.isSome ∧ (R.get d).isSome then R.set created revision
      else created) : d' = if expected.isNone then d else R.set d revision := by
  cases hprevious : R.get d with
  | none =>
    rw [hprevious] at hexpected hcreated hclaimed
    rw [hclaimed, if_neg (by simp), hcreated]
    cases expected with
    | none => rfl
    | some =>
      cases hexpected.zero
      rw [hfirst hprevious]
      rfl
  | some =>
    rw [hprevious] at hcreated hclaimed
    have hsame : created = d := by rw [hcreated, if_neg (by simp)]
    rw [hclaimed, hsame]
    cases expected <;> rfl

/-- The same in the other order. -/
theorem claimed_of_advance {advanced : D} (hexpected : Expects (R.get d) expected)
    (hadvanced : advanced = if expected.isSome ∧ (R.get d).isSome then R.set d revision else d)
    (hclaimed : d' = if expected = some 0 ∧ R.get d = none then R.set advanced revision
      else advanced) : d' = if expected.isNone then d else R.set d revision := by
  cases hprevious : R.get d with
  | none =>
    rw [hprevious] at hexpected hadvanced hclaimed
    have hsame : advanced = d := by rw [hadvanced, if_neg (by simp)]
    rw [hclaimed, hsame]
    cases expected with
    | none => rfl
    | some =>
      cases hexpected.zero
      rfl
  | some =>
    rw [hprevious] at hadvanced hclaimed
    rw [hclaimed, if_neg (by simp), hadvanced]
    cases expected <;> rfl

theorem publish_ok (h : (R.publish previous expected revision).exec E d = (.ok (), d'))
    (hexpected : Expects previous expected) :
    d' = if expected.isNone then R.set d revision else d := by
  cases expected with
  | some =>
    cases previous with
    | some =>
      cases h
      rfl
    | none =>
      cases hexpected.zero
      cases h
      rfl
  | none =>
    cases previous with
    | some previous =>
      obtain ⟨ok, between, hupdate, hrest⟩ := bind_ok_iff.mp h
      cases (R.exec_ask (.update previous revision) d).symm.trans hupdate
      split at hrest
      · rename_i hsome
        have hget : (R.get d).isSome = true := hsome
        cases hrest
        simp [hget]
      · cases hrest
    | none =>
      obtain ⟨ok, between, hinsert, hrest⟩ := bind_ok_iff.mp h
      cases (R.exec_ask (.insert revision) d).symm.trans hinsert
      split at hrest
      · rename_i hnone
        have hget : (R.get d).isNone = true := hnone
        cases hrest
        simp [hget]
      · cases hrest

/-- Whoever expects the revision that is there gets the row. -/
theorem exec_claim (R : RevisionRow ε E) (d : D) (revision : Nat) {β : Type}
    (p : Transaction ε Q A β) :
    (R.advanceIfExpected (R.get d) (some ((R.get d).getD 0)) revision >>= fun _ =>
      R.createIfFirst (R.get d) (some ((R.get d).getD 0)) revision >>= fun _ => p).exec E d =
      p.exec E (R.set d revision) := by
  cases h : R.get d with
  | none =>
    have hcreate : (R.create revision).exec E d = (.ok (), R.set d revision) := by
      refine bind_ok_iff.mpr ⟨_, _, R.exec_ask _ d, ?_⟩
      rw [h]
      rfl
    show (R.createIfFirst none (some 0) revision >>= fun _ => p).exec E d = _
    rw [createIfFirst, if_pos ⟨rfl, rfl⟩, exec_bind, hcreate]
  | some previous =>
    have hadvance : (R.advance previous revision).exec E d = (.ok (), R.set d revision) := by
      refine bind_ok_iff.mpr ⟨_, _, R.exec_ask _ d, ?_⟩
      rw [h]
      simp [RowStatement.answer]
      rfl
    simp only [Option.getD_some, advanceIfExpected_some, createIfFirst_some, pure_bind]
    rw [exec_bind, hadvance]

/-! ## 5. They claim the row -/

/-- The transaction claims this row. -/
abbrev ClaimsRow {β : Type} (R : RevisionRow ε E) (v : Nat) (p : Transaction ε Q A β) : Prop :=
  Claims E R.version R.key R.fair v p

theorem claims_lose {v expected : Nat} : R.ClaimsRow v (R.lose expected) :=
  R.claims_ask .find _ v nofun fun _ _ => trivial

theorem claims_create : R.ClaimsRow 0 (R.create revision) := by
  refine R.claims_ask (.insertIfAbsent revision) _ 0 (fun d written h _ => ?_) fun d h => ?_
  · cases hget : R.get d with
    | none => rfl
    | some => simp [hget] at h
  · cases hget : R.get d with
    | none => simp [hget] at h
    | some => exact claims_lose

theorem claims_advance {expected : Nat} :
    R.ClaimsRow (rowVersion (some expected)) (R.advance expected revision) := by
  refine R.claims_ask (.updateWhere expected revision) _ _ (fun d written h _ => ?_) fun d h => ?_
  · by_cases hget : R.get d = some expected
    · rw [hget]
    · simp [hget] at h
  · by_cases hget : R.get d = some expected
    · simp [hget] at h
    · have hzero : (RowStatement.updateWhere expected revision).answer (R.get d) = (0 : Nat) :=
        if_neg hget
      rw [hzero]
      exact claims_lose

theorem claims_publish : R.ClaimsRow (rowVersion previous) (R.publish previous none revision) := by
  cases previous with
  | none =>
    refine R.claims_ask (.insert revision) _ _ (fun d written h _ => ?_) fun d h => ?_
    · cases hget : R.get d with
      | none => rfl
      | some => simp [hget] at h
    · cases hget : R.get d with
      | none => simp [hget] at h
      | some => exact trivial
  | some previous =>
    refine R.claims_ask (.update previous revision) _ _ (fun d written _ hfair => ?_) fun d h => ?_
    · exact congrArg rowVersion hfair
    · cases hget : R.get d with
      | none => exact trivial
      | some => simp [hget] at h

end RevisionRow

end Row

end Lib
