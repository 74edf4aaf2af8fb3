/-
  Subject:   Any number of transactions at once under read committed, and a row they all claim.

  A statement sees what is committed and what its own transaction has written. Each row it writes is
  locked until the transaction ends; a statement that would write a row locked by somebody else
  waits. `COMMIT` makes all writes of a transaction visible together. Nothing orders the members.

  * `Serial` -- the committed data is what the successful transactions make one after the other, each
    alone;
  * `Claims` -- no way to success that does not write the guarding row at the version read;
  * **`serializable`** -- if all transactions claim the row, every interleaving is serial.
-/
import Mathlib.Logic.Function.Basic
import Smalux.Lib.Transaction

namespace Lib.ReadCommitted

open Transaction List

section System

/-! ## 1. The members and the database -/

variable {ε Q α D W K C I : Type} {A : Q → Type} {β : Type}

/-- A transaction under way: the call it serves, what is left of it, and its writes so far. -/
structure Session (ε Q : Type) (A : Q → Type) (α W C : Type) where
  call : C
  rest : Transaction ε Q A α
  log : List W

structure System (ε Q : Type) (A : Q → Type) (α D W K C I : Type) where
  committed : D
  /-- who has locked a row -/
  owner : K → Option I
  sessions : I → Option (Session ε Q A α W C)
  /-- the calls that have succeeded with their results, the last one first -/
  history : List (C × α)

inductive Act (C : Type) where
  | begin (call : C)
  | statement
  /-- a statement is refused or the connection is lost: the transaction is rolled back -/
  | lost
  deriving DecidableEq, Repr

variable [DecidableEq I] (E : Engine Q A D W K)

namespace System

def start (d : D) : System ε Q A α D W K C I := ⟨d, fun _ => none, fun _ => none, []⟩

variable (s : System ε Q A α D W K C I)

/-- What the transaction sees. -/
def view (t : Session ε Q A α W C) : D := E.overlay s.committed t.log

/-- One of the rows is locked by somebody else. -/
def blocked (i : I) (log : List W) : Bool :=
  log.any fun w => decide (s.owner (E.key w) ≠ none ∧ s.owner (E.key w) ≠ some i)

/-- The member's transaction is over. -/
def finish (i : I) : System ε Q A α D W K C I :=
  { s with
    owner := fun k => if s.owner k = some i then none else s.owner k
    sessions := Function.update s.sessions i none }

variable [DecidableEq K]

/-- The member's transaction goes on, with some more writes. -/
def proceed (i : I) (t : Session ε Q A α W C) (log : List W) (rest : Transaction ε Q A α) :
    System ε Q A α D W K C I :=
  { s with
    owner := fun k => if k ∈ E.keys log then some i else s.owner k
    sessions := Function.update s.sessions i (some ⟨t.call, rest, t.log ++ log⟩) }

/-- The next statement of the member's transaction, or its `COMMIT` or `ROLLBACK`. -/
def advance (i : I) (t : Session ε Q A α W C) : System ε Q A α D W K C I :=
  match t.rest with
  | .done value =>
    { s.finish i with
      committed := s.view E t
      history := (t.call, value) :: s.history }
  | .failed _ => s.finish i
  | .ask q resume =>
    if s.blocked E i (E.writes (s.view E t) q) then s
    else
      s.proceed E i t (E.writes (s.view E t) q) (resume (E.answer (s.view E t) q))

def step (program : C → Transaction ε Q A α) (move : I × Act C) : System ε Q A α D W K C I :=
  match s.sessions move.1, move.2 with
  | none, .begin call =>
    { s with sessions := Function.update s.sessions move.1 (some ⟨call, program call, []⟩) }
  | some t, .statement => s.advance E move.1 t
  | some _, .lost => s.finish move.1
  | none, _ => s
  | some _, .begin _ => s

/-- The condition on the statement that is executed next, in view of what it sees. -/
def Fair (fair : D → Q → Prop) (move : I × Act C) : Prop :=
  match s.sessions move.1, move.2 with
  | some t, .statement =>
    match t.rest with
    | .ask q _ => fair (s.view E t) q
    | _ => True
  | _, _ => True

instance Fair.decidable (fair : D → Q → Prop) [∀ d q, Decidable (fair d q)] (move : I × Act C) :
    Decidable (s.Fair E fair move) :=
  match h : s.sessions move.1, h' : move.2 with
  | some t, .statement =>
    match h'' : t.rest with
    | .ask q _ => decidable_of_iff (fair (s.view E t) q) (by simp [Fair, h, h', h''])
    | .done _ => .isTrue (by simp [Fair, h, h', h''])
    | .failed _ => .isTrue (by simp [Fair, h, h', h''])
  | some _, .begin _ => .isTrue (by simp [Fair, h, h'])
  | some _, .lost => .isTrue (by simp [Fair, h, h'])
  | none, _ => .isTrue (by simp [Fair, h])

end System

/-! ## 2. Serial histories -/

/-- The data is what the successful calls make of `d₀`, one after the other and each alone. -/
def Serial (program : C → Transaction ε Q A α) (d₀ : D) : List (C × α) → D → Prop
  | [], d => d = d₀
  | (call, value) :: earlier, d =>
    ∃ before, Serial program d₀ earlier before ∧ (program call).exec E before = (.ok value, d)

variable {E} in
/-- **Numbers that identify**: if each success returns a number above the current one and makes it the
    current one, no number is returned twice, and they come in order. -/
theorem Serial.increasing {program : C → Transaction ε Q A α} {number : α → Nat} {current : D → Nat}
    {d₀ : D}
    (hnumber : ∀ call d value d', (program call).exec E d = (.ok value, d') →
      current d < number value ∧ current d' = number value) :
    ∀ {history : List (C × α)} {d : D}, Serial E program d₀ history d →
      (history.map fun entry => number entry.2).Pairwise (· > ·) ∧
        ∀ entry ∈ history, number entry.2 ≤ current d
  | [], _, _ => ⟨.nil, fun entry h => absurd h not_mem_nil⟩
  | (call, value) :: earlier, d, ⟨before, hearlier, hexec⟩ => by
    obtain ⟨hpairwise, hbound⟩ := Serial.increasing hnumber hearlier
    obtain ⟨hnew, hcurrent⟩ := hnumber call before value d hexec
    have hbelow : ∀ entry ∈ earlier, number entry.2 < number value :=
      fun entry he => Nat.lt_of_le_of_lt (hbound entry he) hnew
    refine ⟨?_, fun entry he => ?_⟩
    · rw [map_cons, pairwise_cons]
      refine ⟨fun n hn => ?_, hpairwise⟩
      obtain ⟨entry, he, rfl⟩ := mem_map.mp hn
      exact hbelow entry he
    · rw [hcurrent]
      rcases mem_cons.mp he with rfl | he
      · exact Nat.le_refl _
      · exact Nat.le_of_lt (hbelow entry he)

/-! ## 3. The guarding row -/

variable (version : D → Nat) (guard : K) (fair : D → Q → Prop)

/-- No statement writes the guarding row. -/
def Avoids {α : Type} : Transaction ε Q A α → Prop
  | .done _ => True
  | .failed _ => True
  | .ask q resume => (∀ d, guard ∉ E.keys (E.writes d q)) ∧ ∀ answer, Avoids (resume answer)

/-- There is no way to success that does not write the guarding row at the version `v`. -/
def Claims (v : Nat) : Transaction ε Q A α → Prop
  | .done _ => False
  | .failed _ => True
  | .ask q resume => ∀ d,
      guard ∈ E.keys (E.writes d q) ∧ (fair d q → version d = v) ∨
        guard ∉ E.keys (E.writes d q) ∧ Claims v (resume (E.answer d q))

/-- The first statement reads, and from then on the transaction claims the row at the version it has
    read. -/
def Opens : Transaction ε Q A α → Prop
  | .done _ => False
  | .failed _ => True
  | .ask q resume => ∀ d,
      E.writes d q = [] ∧ Claims E version guard fair (version d) (resume (E.answer d q))

variable {E version guard fair} {v : Nat} {p : Transaction ε Q A β} {f : β → Transaction ε Q A α}

/-- **The rule for a part that leaves the row alone.** -/
theorem Claims.bind (hp : Avoids E guard p)
    (hf : ∀ value, Claims E version guard fair v (f value)) :
    Claims E version guard fair v (p >>= f) := by
  induction p with
  | done value => exact hf value
  | failed => exact trivial
  | ask q resume ih => exact fun d => .inr ⟨hp.1 d, ih _ (hp.2 _)⟩

/-- The row has been claimed: what comes after is free. -/
theorem Claims.append (hp : Claims E version guard fair v p) :
    Claims E version guard fair v (p >>= f) := by
  induction p with
  | done => exact hp.elim
  | failed => exact trivial
  | ask q resume ih =>
    intro d
    rcases hp d with hclaimed | ⟨hguard, hrest⟩
    · exact .inl hclaimed
    · exact .inr ⟨hguard, ih _ hrest⟩

/-- What comes after the claim. -/
theorem Opens.append (hp : Opens E version guard fair p) :
    Opens E version guard fair (p >>= f) := by
  cases p with
  | done => exact hp.elim
  | failed => exact trivial
  | ask => exact fun d => ⟨(hp d).1, (hp d).2.append⟩

/-- Checks that come before the first statement. -/
theorem Opens.check {x : Except ε β}
    (hf : ∀ value, x = .ok value → Opens E version guard fair (f value)) :
    Opens E version guard fair (Transaction.ofExcept x >>= f) := by
  cases x with
  | error => exact trivial
  | ok value => exact hf value rfl

theorem Avoids.bind {γ : Type} {f : β → Transaction ε Q A γ} (hp : Avoids E guard p)
    (hf : ∀ value, Avoids E guard (f value)) : Avoids E guard (p >>= f) := by
  induction p with
  | done value => exact hf value
  | failed => exact trivial
  | ask q resume ih => exact ⟨hp.1, fun answer => ih answer (hp.2 answer)⟩

theorem Avoids.statement {q : Q} (h : ∀ d, guard ∉ E.keys (E.writes d q)) :
    Avoids E guard (statement q : Transaction ε Q A (A q)) := ⟨h, fun _ => trivial⟩

theorem Avoids.ofExcept (x : Except ε β) :
    Avoids E guard (Transaction.ofExcept x : Transaction ε Q A β) := by
  cases x <;> exact trivial

/-! ## 4. A transaction that has seen only one state of the data -/

variable (E)

/-- The transaction as it would be had it run alone on `d`. -/
inductive Replays (p : Transaction ε Q A α) (d : D) : Transaction ε Q A α → List W → Prop where
  | begin : Replays p d p []
  | statement {q : Q} {resume : A q → Transaction ε Q A α} {log : List W} :
      Replays p d (.ask q resume) log →
      Replays p d (resume (E.answer (E.overlay d log) q)) (log ++ E.writes (E.overlay d log) q)

variable {E}

/-- What is left of it does what the whole does. -/
theorem Replays.exec {p rest : Transaction ε Q A α} {d : D} {log : List W}
    (h : Replays E p d rest log) : p.exec E d = rest.exec E (E.overlay d log) := by
  induction h with
  | begin => rfl
  | @statement q resume log _ ih =>
    rw [ih, Engine.overlay_append]
    rfl

variable (E version guard fair)

/-- A transaction under way: it has done nothing yet; or it still has to claim the row, and if the
    row has not moved since, it has seen only one state; or it has the row. -/
inductive Fits (program : C → Transaction ε Q A α) (d : D) (t : Session ε Q A α W C) : Prop where
  | fresh (hrest : t.rest = program t.call) (hlog : t.log = [])
  | claiming (v : Nat) (hv : v ≤ version d) (hclaims : Claims E version guard fair v t.rest)
      (hlog : guard ∉ E.keys t.log)
      (hreplays : version d = v → Replays E (program t.call) d t.rest t.log)
  | holding (hlog : guard ∈ E.keys t.log) (hreplays : Replays E (program t.call) d t.rest t.log)

/-- Everything that is kept in a run. -/
structure Inv (program : C → Transaction ε Q A α) (d₀ : D) (s : System ε Q A α D W K C I) :
    Prop where
  serial : Serial E program d₀ s.history s.committed
  locks : ∀ i t, s.sessions i = some t → ∀ k ∈ E.keys t.log, s.owner k = some i
  fits : ∀ i t, s.sessions i = some t → Fits E version guard fair program s.committed t

variable {E version guard fair} {program : C → Transaction ε Q A α} {d₀ : D}
  {s : System ε Q A α D W K C I} {i : I} {t : Session ε Q A α W C} {q : Q}
  {resume : A q → Transaction ε Q A α}

theorem version_overlay (hother : ∀ d w, E.key w ≠ guard → version (E.write d w) = version d) :
    ∀ (log : List W) (d : D), guard ∉ E.keys log → version (E.overlay d log) = version d
  | [], _, _ => rfl
  | w :: log, d, h => by
    have hmem : guard ≠ E.key w ∧ guard ∉ E.keys log := by
      simpa [Engine.keys, not_or] using h
    rw [Engine.overlay_cons, version_overlay hother log _ hmem.2]
    exact hother d w (Ne.symm hmem.1)

theorem System.not_blocked {log : List W} (h : s.blocked E i log = false) {k : K}
    (hk : k ∈ E.keys log) : s.owner k = none ∨ s.owner k = some i := by
  obtain ⟨w, hw, rfl⟩ := mem_map.mp hk
  have hw' := any_eq_false.mp h w hw
  simp only [decide_eq_true_eq, not_and, ne_eq, not_not] at hw'
  by_cases hnone : s.owner (E.key w) = none
  · exact .inl hnone
  · exact .inr (hw' hnone)

/-- A session after one of them was replaced: the new one, or another one. -/
theorem session_cases {T : Type} {f : I → Option T} {j : I} {new : Option T} {t : T}
    (h : Function.update f i new j = some t) : j = i ∧ new = some t ∨ j ≠ i ∧ f j = some t := by
  by_cases hji : j = i
  · subst hji
    rw [Function.update_self] at h
    exact .inl ⟨rfl, h⟩
  · rw [Function.update_of_ne hji] at h
    exact .inr ⟨hji, h⟩

theorem System.finish_session {j : I} (h : (s.finish i).sessions j = some t) :
    j ≠ i ∧ s.sessions j = some t := by
  rcases session_cases (f := s.sessions) h with ⟨_, hnone⟩ | hother
  · cases hnone
  · exact hother

/-- A transaction ends without a trace. -/
theorem Inv.finish (h : Inv E version guard fair program d₀ s) (i : I) :
    Inv E version guard fair program d₀ (s.finish i) := by
  refine ⟨h.serial, fun j t hj k hk => ?_, fun j t hj => ?_⟩
  · obtain ⟨hji, hj⟩ := System.finish_session hj
    have howner := h.locks j t hj k hk
    show (if s.owner k = some i then none else s.owner k) = some j
    rw [howner, if_neg (by simpa using hji)]
  · exact h.fits j t (System.finish_session hj).2

section Step

variable (hother : ∀ d w, E.key w ≠ guard → version (E.write d w) = version d)
  (hopens : ∀ call, Opens E version guard fair (program call))
include hother hopens

/-- The transaction after one more statement. -/
theorem Fits.ask {d : D} (h : Fits E version guard fair program d t)
    (hrest : t.rest = .ask q resume) (hfair : fair (E.overlay d t.log) q) :
    Fits E version guard fair program d
      ⟨t.call, resume (E.answer (E.overlay d t.log) q),
        t.log ++ E.writes (E.overlay d t.log) q⟩ := by
  cases h with
  | fresh hstart hlog =>
    rw [hrest] at hstart
    have hopen := hopens t.call
    rw [← hstart] at hopen
    obtain ⟨hwrites, hclaims⟩ := hopen d
    have hbegin : Replays E (program t.call) d (.ask q resume) [] := hstart ▸ Replays.begin
    have hreplays := hbegin.statement
    rw [hlog]
    refine .claiming (version d) (Nat.le_refl _) hclaims ?_ fun _ => hreplays
    show guard ∉ E.keys ([] ++ E.writes d q)
    rw [hwrites]
    exact not_mem_nil
  | claiming v hv hclaims hlog hreplays =>
    rw [hrest] at hclaims hreplays
    rcases hclaims (E.overlay d t.log) with ⟨hguard, hversion⟩ | ⟨hguard, hclaims⟩
    · -- the row is written: it still has the version read first
      have hsame := hversion hfair
      rw [version_overlay hother t.log d hlog] at hsame
      refine .holding ?_ (.statement (hreplays hsame))
      rw [Engine.keys_append]
      exact mem_append_right _ hguard
    · refine .claiming v hv hclaims ?_ fun hsame => .statement (hreplays hsame)
      rw [Engine.keys_append]
      exact not_mem_append hlog hguard
  | holding hlog hreplays =>
    rw [hrest] at hreplays
    refine .holding ?_ (.statement hreplays)
    rw [Engine.keys_append]
    exact mem_append_left _ hlog

variable [DecidableEq K]

/-- One statement. -/
theorem Inv.proceed (h : Inv E version guard fair program d₀ s) (hi : s.sessions i = some t)
    (hrest : t.rest = .ask q resume) (hfair : fair (s.view E t) q)
    (hfree : s.blocked E i (E.writes (s.view E t) q) = false) :
    Inv E version guard fair program d₀
      (s.proceed E i t (E.writes (s.view E t) q) (resume (E.answer (s.view E t) q))) := by
  have howner : ∀ j t', s.sessions j = some t' → ∀ k ∈ E.keys t'.log,
      (if k ∈ E.keys (E.writes (s.view E t) q) then some i else s.owner k) = some j := by
    intro j t' hj k hk
    have hlocked := h.locks j t' hj k hk
    split
    · rename_i hmem
      rcases System.not_blocked hfree hmem with hnone | hown
      · rw [hlocked] at hnone
        cases hnone
      · exact hown.symm.trans hlocked
    · exact hlocked
  refine ⟨h.serial, fun j t' hj k hk => ?_, fun j t' hj => ?_⟩
  · rcases session_cases (f := s.sessions) hj with ⟨rfl, hnew⟩ | ⟨_, hj⟩
    · cases hnew
      rw [Engine.keys_append] at hk
      rcases mem_append.mp hk with hk | hk
      · exact howner j t hi k hk
      · exact if_pos hk
    · exact howner j t' hj k hk
  · rcases session_cases (f := s.sessions) hj with ⟨rfl, hnew⟩ | ⟨_, hj⟩
    · cases hnew
      exact (h.fits j t hi).ask hother hopens hrest hfair
    · exact h.fits j t' hj

variable (hadvance : ∀ call d value d',
  (program call).exec E d = (.ok value, d') → version d < version d')
include hadvance

omit [DecidableEq K] hother in
/-- `COMMIT`: the transaction has the row, so nobody else has committed since it read it; whoever
    has read it before will find another version. -/
theorem Inv.commit (h : Inv E version guard fair program d₀ s) (hi : s.sessions i = some t)
    {value : α} (hrest : t.rest = .done value) : Inv E version guard fair program d₀ { s.finish i with
        committed := s.view E t
        history := (t.call, value) :: s.history } := by
  have hheld : guard ∈ E.keys t.log ∧ Replays E (program t.call) s.committed t.rest t.log := by
    cases h.fits i t hi with
    | fresh hstart =>
      have hopen := hopens t.call
      rw [← hstart, hrest] at hopen
      exact hopen.elim
    | claiming v _ hclaims =>
      rw [hrest] at hclaims
      exact hclaims.elim
    | holding hlog hreplays => exact ⟨hlog, hreplays⟩
  have hexec : (program t.call).exec E s.committed = (.ok value, s.view E t) := by
    rw [hheld.2.exec, hrest]
    rfl
  have hnew := hadvance _ _ _ _ hexec
  have hfinish := h.finish i
  refine ⟨⟨s.committed, h.serial, hexec⟩, hfinish.locks, fun j t' hj => ?_⟩
  obtain ⟨hji, hj'⟩ := System.finish_session hj
  cases h.fits j t' hj' with
  | fresh hstart hlog => exact .fresh hstart hlog
  | claiming v hv hclaims hlog _ =>
    refine .claiming v (Nat.le_trans hv (Nat.le_of_lt hnew)) hclaims hlog fun hsame => ?_
    exact absurd hsame (by simp only; omega)
  | holding hlog =>
    -- two members cannot have the row
    have hmine := h.locks i t hi guard hheld.1
    rw [h.locks j t' hj' guard hlog] at hmine
    exact absurd (Option.some.inj hmine) hji

/-- **One step**, of anybody. -/
theorem Inv.step {move : I × Act C} (h : Inv E version guard fair program d₀ s)
    (hfair : s.Fair E fair move) :
    Inv E version guard fair program d₀ (s.step E program move) := by
  obtain ⟨i, act⟩ := move
  unfold System.step
  cases hi : s.sessions i with
  | none =>
    cases act with
    | statement | lost => simpa only [hi] using h
    | begin =>
      refine ⟨h.serial, fun j t hj k hk => ?_, fun j t hj => ?_⟩
      · rcases session_cases hj with ⟨rfl, hnew⟩ | ⟨_, hj⟩
        · cases hnew
          exact absurd hk not_mem_nil
        · exact h.locks j t hj k hk
      · rcases session_cases hj with ⟨rfl, hnew⟩ | ⟨_, hj⟩
        · cases hnew
          exact .fresh rfl rfl
        · exact h.fits j t hj
  | some =>
    cases act with
    | begin => simpa only [hi] using h
    | lost => exact h.finish i
    | statement =>
      simp only
      unfold System.advance
      split
      · rename_i value hrest
        exact h.commit hopens hadvance hi hrest
      · exact h.finish i
      · rename_i q resume hrest
        split
        · exact h
        · rename_i hfree
          refine h.proceed hother hopens hi hrest ?_ (by simpa using hfree)
          simpa only [System.Fair, hi, hrest] using hfair

/-- **Every interleaving is serial**, if every transaction claims the guarding row and a success
    moves its version on. -/
theorem serializable {moves : List (I × Act C)}
    (hfair : Along (fun s => System.step E s program) (fun s => s.Fair E fair)
      (System.start d₀ : System ε Q A α D W K C I) moves) :
    Throughout (fun s => System.step E s program)
      (fun s => Serial E program d₀ s.history s.committed) (System.start d₀) moves := by
  have hstart : Inv E version guard fair program d₀ (System.start d₀ : System ε Q A α D W K C I) :=
    ⟨rfl, fun i t ht => (nomatch ht), fun i t ht => (nomatch ht)⟩
  exact throughout_of_invariant (fun s move hs hok => hs.step hother hopens hadvance hok)
    (fun s hs => hs.serial) hstart hfair

end Step

end System

end Lib.ReadCommitted
