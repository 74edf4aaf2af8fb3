/-
  Subject:   Transactions as programs of statements, and what they do when nobody else is there.

  A transaction asks the database one statement after the other and ends with a value, which commits
  it, or with an error, which rolls it back. The database says what a statement answers and which
  rows it writes; each row has a key.
-/
import Smalux.Lib.Run

namespace Lib

/-- Statements of type `Q`; the answer to the statement `q` has the type `A q`. -/
inductive Transaction (ε : Type) (Q : Type) (A : Q → Type) (α : Type) where
  | done (value : α)
  | failed (error : ε)
  | ask (statement : Q) (resume : A statement → Transaction ε Q A α)

/-- A database with the data `D`: the answer to a statement, the rows it writes, and the key of the
    row that is written. -/
structure Engine (Q : Type) (A : Q → Type) (D W K : Type) where
  answer : D → (q : Q) → A q
  writes : D → Q → List W
  write : D → W → D
  key : W → K

namespace Engine

variable {Q : Type} {A : Q → Type} {D W K : Type} (E : Engine Q A D W K)

/-- The data with some writes. -/
def overlay (d : D) (log : List W) : D := log.foldl E.write d

/-- The rows that are written. -/
def keys (log : List W) : List K := log.map E.key

@[simp] theorem overlay_nil (d : D) : E.overlay d [] = d := rfl

@[simp] theorem overlay_cons (d : D) (w : W) (log : List W) :
    E.overlay d (w :: log) = E.overlay (E.write d w) log := rfl

theorem overlay_append (d : D) (log log' : List W) :
    E.overlay d (log ++ log') = E.overlay (E.overlay d log) log' := List.foldl_append

@[simp] theorem keys_append (log log' : List W) : E.keys (log ++ log') = E.keys log ++ E.keys log' :=
  List.map_append

end Engine

namespace Transaction

variable {ε Q α β : Type} {A : Q → Type} {p : Transaction ε Q A α}

def bind : Transaction ε Q A α → (α → Transaction ε Q A β) → Transaction ε Q A β
  | .done value, f => f value
  | .failed e, _ => .failed e
  | .ask q resume, f => .ask q fun answer => (resume answer).bind f

instance : Monad (Transaction ε Q A) where
  pure := .done
  bind := .bind

/-- One statement. -/
def statement (q : Q) : Transaction ε Q A (A q) := .ask q .done

/-- `?`. -/
def ofExcept : Except ε α → Transaction ε Q A α
  | .ok value => .done value
  | .error e => .failed e

@[simp] theorem pure_bind (value : α) (f : α → Transaction ε Q A β) :
    pure value >>= f = f value := rfl

section Alone

variable {D W K : Type} (E : Engine Q A D W K) {d d' : D}

/-- The result of a transaction that runs alone, and the data with all its writes. -/
def exec : Transaction ε Q A α → D → Except ε α × D
  | .done value, d => (.ok value, d)
  | .failed e, d => (.error e, d)
  | .ask q resume, d => exec (resume (E.answer d q)) (E.overlay d (E.writes d q))

/-- An error takes the writes back. -/
def atomically (p : Transaction ε Q A α) (d : D) : Except ε α × D :=
  match p.exec E d with
  | (.ok value, d') => (.ok value, d')
  | (.error e, _) => (.error e, d)

@[simp] theorem exec_failed (e : ε) (d : D) :
    (.failed e : Transaction ε Q A α).exec E d = (.error e, d) := rfl

theorem exec_bind (p : Transaction ε Q A α) (f : α → Transaction ε Q A β) (d : D) :
    (p >>= f).exec E d =
      match p.exec E d with
      | (.ok value, d') => (f value).exec E d'
      | (.error e, d') => (.error e, d') := by
  induction p generalizing d with
  | done | failed => rfl
  | ask q resume ih => exact ih _ _

variable {E}

/-- **A composed transaction, read backwards**: it succeeds if both parts do, one after the
    other. -/
theorem bind_ok_iff {f : α → Transaction ε Q A β} {b : β} : (p >>= f).exec E d = (.ok b, d') ↔
      ∃ value between, p.exec E d = (.ok value, between) ∧
        (f value).exec E between = (.ok b, d') := by
  rw [exec_bind]
  constructor
  · intro h
    cases hp : p.exec E d with
    | mk result between =>
      rw [hp] at h
      cases result with
      | ok value => exact ⟨value, between, rfl, h⟩
      | error => cases h
  · rintro ⟨value, between, hp, hf⟩
    rw [hp]
    exact hf

theorem ofExcept_bind_ok_iff {x : Except ε α} {f : α → Transaction ε Q A β} {b : β} :
    (ofExcept x >>= f).exec E d = (.ok b, d') ↔
      ∃ value, x = .ok value ∧ (f value).exec E d = (.ok b, d') := by
  cases x with
  | ok v => exact ⟨fun h => ⟨v, rfl, h⟩, fun ⟨_, hv, h⟩ => by cases hv; exact h⟩
  | error => exact ⟨nofun, fun ⟨_, hv, _⟩ => (nomatch hv)⟩

theorem atomically_ok_iff {value : α} :
    p.atomically E d = (.ok value, d') ↔ p.exec E d = (.ok value, d') := by
  unfold atomically
  split
  · rename_i h
    rw [h]
  · rename_i h
    rw [h]
    simp

/-- **A failed transaction has changed nothing.** -/
theorem atomically_error {e : ε} (h : p.atomically E d = (.error e, d')) : d' = d := by
  unfold atomically at h
  split at h
  · cases h
  · cases h
    rfl

end Alone

end Transaction

end Lib
