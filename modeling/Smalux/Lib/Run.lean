/-
  Subject:   Runs of a state machine, and what holds along them.

  A machine is a step function `step : S → A → S`; a run is the list of its actions. Conditions on
  a run are conditions on each step taken, over the state the step starts from (`Along`).

  * `run_invariant` -- an invariant kept by every step that meets the condition holds at the end
    of every run whose steps meet it;
  * `Throughout` -- in EVERY state of the run, not only its last; `throughout_of_invariant` is the
    rule for it;
  * `throughout_iff_along` -- when a step that breaks the condition breaks the property, the
    condition is exact;
  * `bind_eq_ok`, `bind_eq_error` -- a fallible step in front of another one, read backwards;
    `ite_eq_ok` for a check.
-/
import Mathlib.Data.List.Basic

namespace Lib

open List

section Runs

variable {S A : Type} (step : S → A → S) {Inv P : S → Prop} {ok : S → A → Prop} {s : S}
  {acts : List A}

/-- The state after the actions `acts`. -/
def run (s : S) (acts : List A) : S := acts.foldl step s

/-- Each step of the run starts in a state where `ok` holds of the action taken. -/
def Along (ok : S → A → Prop) : S → List A → Prop
  | _, [] => True
  | s, a :: acts => ok s a ∧ Along ok (step s a) acts

instance Along.decidable (ok : S → A → Prop) [∀ s a, Decidable (ok s a)] :
    ∀ (s : S) (acts : List A), Decidable (Along step ok s acts)
  | _, [] => .isTrue trivial
  | s, a :: acts =>
    have := Along.decidable ok (step s a) acts
    inferInstanceAs (Decidable (ok s a ∧ Along step ok (step s a) acts))

/-- `P` holds in every state of the run, the first and the last included. -/
def Throughout (P : S → Prop) (s : S) (acts : List A) : Prop :=
  ∀ past, past <+: acts → P (run step s past)

@[simp] theorem run_nil (s : S) : run step s [] = s := rfl

@[simp] theorem run_cons (s : S) (a : A) (acts : List A) :
    run step s (a :: acts) = run step (step s a) acts := rfl

theorem run_append (s : S) (acts acts' : List A) :
    run step s (acts ++ acts') = run step (run step s acts) acts' :=
  foldl_append

variable {step}

theorem run_invariant (hstep : ∀ s a, Inv s → ok s a → Inv (step s a)) :
    ∀ (acts : List A) (s : S), Inv s → Along step ok s acts → Inv (run step s acts)
  | [], _, hi, _ => hi
  | a :: acts, s, hi, h => run_invariant hstep acts (step s a) (hstep s a hi h.1) h.2

theorem along_mono {ok' : S → A → Prop} (h : ∀ s a, ok s a → ok' s a) :
    ∀ {acts : List A} {s : S}, Along step ok s acts → Along step ok' s acts
  | [], _, _ => trivial
  | a :: _, s, hok => ⟨h s a hok.1, along_mono h hok.2⟩

theorem along_initial : ∀ {past acts : List A} {s : S},
    past <+: acts → Along step ok s acts → Along step ok s past
  | [], _, _, _, _ => trivial
  | a :: past, acts, s, hp, h => by
    obtain ⟨rest, rfl⟩ := hp
    exact ⟨h.1, along_initial (prefix_append past rest) h.2⟩

/-- **The invariant rule for every state of a run.** -/
theorem throughout_of_invariant (hstep : ∀ s a, Inv s → ok s a → Inv (step s a))
    (hP : ∀ s, Inv s → P s) (hi : Inv s) (h : Along step ok s acts) : Throughout step P s acts :=
  fun past hp => hP _ (run_invariant hstep past s hi (along_initial hp h))

/-- **The invariant rule for every step of a run.** -/
theorem along_of_invariant {Q : S → A → Prop} (hstep : ∀ s a, Inv s → ok s a → Inv (step s a))
    (hQ : ∀ s a, Inv s → ok s a → Q s a) :
    ∀ {acts : List A} {s : S}, Inv s → Along step ok s acts → Along step Q s acts
  | [], _, _, _ => trivial
  | a :: _, s, hi, h => ⟨hQ s a hi h.1, along_of_invariant hstep hQ (hstep s a hi h.1) h.2⟩

theorem Throughout.head (h : Throughout step P s acts) : P s := h [] nil_prefix

theorem Throughout.tail {a : A} (h : Throughout step P s (a :: acts)) :
    Throughout step P (step s a) acts :=
  fun past hp => h (a :: past) (cons_prefix_cons.mpr ⟨rfl, hp⟩)

/-- **An exact condition** in the runs that keep to `pre`: the steps that meet it keep an invariant,
    and a step that does not meet it loses the property. -/
theorem throughout_iff_along_of {pre : S → A → Prop}
    (hkeep : ∀ s a, Inv s → pre s a → ok s a → Inv (step s a)) (hP : ∀ s, Inv s → P s)
    (hlose : ∀ s a, Inv s → pre s a → P (step s a) → ok s a) :
    ∀ {acts : List A} {s : S}, Inv s → Along step pre s acts →
      (Throughout step P s acts ↔ Along step ok s acts)
  | [], s, hs, _ => by
    refine ⟨fun _ => trivial, fun _ past hp => ?_⟩
    rw [prefix_nil.mp hp]
    exact hP s hs
  | a :: acts, s, hs, hpre => by
    constructor
    · intro h
      have hok := hlose s a hs hpre.1 h.tail.head
      have hs' := hkeep s a hs hpre.1 hok
      exact ⟨hok, (throughout_iff_along_of hkeep hP hlose hs' hpre.2).mp h.tail⟩
    · intro h past hp
      cases past with
      | nil => exact hP s hs
      | cons b past =>
        obtain ⟨rfl, hpast⟩ := cons_prefix_cons.mp hp
        have hs' := hkeep s _ hs hpre.1 h.1
        exact (throughout_iff_along_of hkeep hP hlose hs' hpre.2).mpr h.2 past hpast

theorem along_trivial : ∀ (acts : List A) (s : S), Along step (fun _ _ => True) s acts
  | [], _ => trivial
  | _ :: acts, _ => ⟨trivial, along_trivial acts _⟩

/-- **An exact condition** in all runs. -/
theorem throughout_iff_along (hkeep : ∀ s a, Inv s → ok s a → Inv (step s a))
    (hP : ∀ s, Inv s → P s) (hlose : ∀ s a, Inv s → P (step s a) → ok s a) (hs : Inv s) :
    Throughout step P s acts ↔ Along step ok s acts :=
  throughout_iff_along_of (fun s a hi _ => hkeep s a hi) hP (fun s a hi _ => hlose s a hi) hs
    (along_trivial acts s)

end Runs

theorem bind_eq_ok {ε α β : Type} {x : Except ε α} {f : α → Except ε β} {b : β}
    (h : x >>= f = .ok b) : ∃ v, x = .ok v ∧ f v = .ok b := by
  cases x with
  | error => cases h
  | ok v => exact ⟨v, rfl, h⟩

theorem bind_eq_error {ε α β : Type} {x : Except ε α} {f : α → Except ε β} {e : ε}
    (h : x >>= f = .error e) : x = .error e ∨ ∃ v, x = .ok v ∧ f v = .error e := by
  cases x with
  | error => exact .inl (congrArg Except.error (Except.error.inj h))
  | ok v => exact .inr ⟨v, rfl, h⟩

theorem ite_eq_ok {ε α : Type} {c : Prop} [Decidable c] {e : ε} {x : Except ε α} {v : α}
    (h : (if c then .error e else x) = .ok v) : ¬ c ∧ x = .ok v := by
  split at h
  · cases h
  · exact ⟨‹_›, h⟩

section MapError

variable {ε ε' α : Type} {g : ε → ε'} {x : Except ε α}

theorem mapError_eq_ok {v : α} (h : x.mapError g = .ok v) : x = .ok v := by
  cases x with
  | error => cases h
  | ok => exact congrArg Except.ok (Except.ok.inj h)

theorem mapError_eq_error {e : ε'} (h : x.mapError g = .error e) : ∃ cause, e = g cause := by
  cases x with
  | ok => cases h
  | error cause => exact ⟨cause, (Except.error.inj h).symm⟩

end MapError

end Lib
