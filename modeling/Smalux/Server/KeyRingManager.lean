/-
  Subject:   The Server key ring in the database and in any number of processes
             (service/agent/keyring_manager.rs, database/keyring.rs).

  A step is one SQL statement or one change of an instance's own state; the mutation lock makes an
  instance do one thing at a time. The commits are recorded for the statements only. A record's key
  ring carries the check that loading makes.

  * `Instance.act` -- `load_or_create`, `mutate`, `sync_once`, statement by statement;
  * `Linear` -- every commit applies its operation to the key ring committed just before it, one
    revision later;
  * **`linearizable_while_read_back`** -- the whole promise, in every interleaving in which an
    instance that has saved reads its own record back.
-/
import Mathlib.Algebra.Order.Group.Nat
import Smalux.Lib.Fleet
import Smalux.Rotation.Keys

namespace Smalux.Server.KeyRings

open Lib Rotation List

variable {t : KeyRingTable} {m : Instance}

/-! ## 1. The model -/

/-- A stored record, and the state of an instance that has loaded one. -/
structure ServerKeyRingRecord where
  keyring : ServerKeyRing
  revision : Nat
  deriving DecidableEq

/-- `i64::MAX`. -/
def maxRevision : Nat := 2 ^ 63 - 1

/-- What `mutate` is called with. -/
inductive Operation where
  | prepare (drawn : Except NoiseError (NoiseIdentity × RotationId))
  | promote (rotationId : RotationId)
  | cancel
  | retire

def Operation.apply (keyring : ServerKeyRing) : Operation → Except NoiseError ServerKeyRing
  | .prepare drawn => keyring.prepareRotation drawn
  | .promote rotationId => keyring.promoteNext rotationId
  | .cancel => keyring.cancelRotation
  | .retire => keyring.retirePrevious

/-- One committed write: the first inserts, every other one is a mutation. -/
structure Commit where
  record : ServerKeyRingRecord
  operation : Option Operation

/-- The one row, and every write to it, the newest first. -/
structure KeyRingTable where
  stored : Option ServerKeyRingRecord := none
  commits : List Commit := []

def KeyRingTable.write (t : KeyRingTable) (record : ServerKeyRingRecord)
    (operation : Option Operation) : KeyRingTable :=
  ⟨some record, ⟨record, operation⟩ :: t.commits⟩

/-- Where an instance is; it holds the mutation lock from `saving` on. -/
inductive Task where
  /-- not started -/
  | absent
  /-- `load_or_create` found no record: the insert comes next -/
  | creating
  /-- inserted if absent: the read comes next -/
  | created
  /-- `load_or_create` has failed -/
  | failed
  | idle
  /-- `save_server_keyring_if_revision`: the update comes next -/
  | saving (operation : Operation) (candidate : ServerKeyRing) (expected : Nat)
  /-- the update changed one row: the read comes next -/
  | saved (candidate : ServerKeyRing) (expected : Nat)
  /-- the update changed no row: the read for the error comes next -/
  | conflicted
  /-- the state read or saved is about to be installed -/
  | installing (state : ServerKeyRingRecord)

structure Instance where
  state : Option ServerKeyRingRecord := none
  task : Task := .absent

inductive Act where
  | load
  | insert (drawn : Except NoiseError NoiseIdentity)
  | mutate (operation : Operation)
  | save
  | readBack
  | sync
  | install

/-- One statement or local step; one that is not next changes nothing. -/
def Instance.act (t : KeyRingTable) (m : Instance) : Act → KeyRingTable × Instance
  | .load =>
    match m.task, t.stored with
    | .absent, some record => (t, { m with task := .installing record })
    | .absent, none => (t, { m with task := .creating })
    | _, _ => (t, m)
  | .insert drawn =>
    match m.task, drawn, t.stored with
    | .creating, .error _, _ => (t, { m with task := .failed })
    -- ON CONFLICT DO NOTHING
    | .creating, .ok _, some _ => (t, { m with task := .created })
    | .creating, .ok identity, none =>
      (t.write ⟨.new identity, 0⟩ none, { m with task := .created })
    | _, _, _ => (t, m)
  | .mutate operation =>
    match m.task, m.state with
    | .idle, some state =>
      match operation.apply state.keyring with
      | .error _ => (t, m)
      | .ok candidate =>
        if state.revision = maxRevision then (t, m)
        else (t, { m with task := .saving operation candidate state.revision })
    | _, _ => (t, m)
  | .save =>
    match m.task, t.stored with
    | .saving operation candidate expected, some record =>
      if record.revision = expected then
        (t.write ⟨candidate, expected + 1⟩ (some operation),
          { m with task := .saved candidate expected })
      else (t, { m with task := .conflicted })
    | .saving _ _ _, none => (t, { m with task := .conflicted })
    | _, _ => (t, m)
  | .readBack =>
    match m.task, t.stored with
    | .created, some record => (t, { m with task := .installing record })
    | .created, none => (t, { m with task := .failed })
    -- the candidate is installed with the revision that is read
    | .saved candidate _, some record =>
      (t, { m with task := .installing ⟨candidate, record.revision⟩ })
    | .saved _ _, none => (t, { m with task := .idle })
    | .conflicted, _ => (t, { m with task := .idle })
    | _, _ => (t, m)
  | .sync =>
    match m.task, m.state, t.stored with
    | .idle, some state, some record =>
      if record.revision ≤ state.revision then (t, m)
      else (t, { m with task := .installing record })
    | _, _, _ => (t, m)
  | .install =>
    match m.task with
    | .installing state => (t, { state := some state, task := .idle })
    | _ => (t, m)

/-- Any number of instances on one database. -/
abbrev Managers (I : Type) := Fleet I KeyRingTable Instance

def Managers.start (I : Type) : Managers I := ⟨{}, fun _ => {}⟩

def Managers.step {I : Type} [DecidableEq I] (s : Managers I) (move : I × Act) : Managers I :=
  Fleet.step (fun t m => Instance.act t m) s move

/-! ## 2. The commits -/

/-- **No lost update**: the first commit creates the key ring; each later one is its operation on
    the key ring committed just before, one revision later. -/
def Linear : List Commit → Prop
  | [] => True
  | [first] => first.operation = none ∧ ∃ identity, first.record = ⟨.new identity, 0⟩
  | commit :: previous :: rest =>
    (∃ operation, commit.operation = some operation ∧
      operation.apply previous.record.keyring = .ok commit.record.keyring) ∧
    commit.record.revision = previous.record.revision + 1 ∧ Linear (previous :: rest)

theorem Linear.revision_lt : ∀ {commit : Commit} {rest : List Commit}, Linear (commit :: rest) →
    ∀ c ∈ rest, c.record.revision < commit.record.revision
  | _, [], _, c, hc => absurd hc not_mem_nil
  | commit, previous :: rest, h, c, hc => by
    obtain ⟨_, hrevision, hrest⟩ := h
    rcases mem_cons.mp hc with rfl | hc
    · omega
    · have := hrest.revision_lt c hc
      omega

/-- The revision of a commit determines its record. -/
theorem Linear.unique : ∀ {commits : List Commit}, Linear commits → ∀ {c c' : Commit},
    c ∈ commits → c' ∈ commits → c.record.revision = c'.record.revision → c.record = c'.record
  | [], _, _, _, hc, _, _ => absurd hc not_mem_nil
  | commit :: rest, h, c, c', hc, hc', heq => by
    have hrest : Linear rest := by
      cases rest with
      | nil => exact trivial
      | cons => exact h.2.2
    rcases mem_cons.mp hc with rfl | hin <;> rcases mem_cons.mp hc' with rfl | hin'
    · rfl
    · exact absurd heq (Nat.ne_of_gt (h.revision_lt c' hin'))
    · exact absurd heq (Nat.ne_of_lt (h.revision_lt c hin))
    · exact hrest.unique hin hin' heq

namespace KeyRingTable

variable {t : KeyRingTable} {record : ServerKeyRingRecord}

/-- The pair of key ring and revision was written to the database. -/
def Committed (t : KeyRingTable) (record : ServerKeyRingRecord) : Prop :=
  ∃ c ∈ t.commits, c.record = record
  deriving Decidable

/-- The row holds the newest commit, and the commits follow one another. -/
structure Consistent (t : KeyRingTable) : Prop where
  linear : Linear t.commits
  stored : t.stored = t.commits.head?.map Commit.record

theorem Committed.write {r : ServerKeyRingRecord} {operation : Option Operation} (h : t.Committed r) :
    (t.write record operation).Committed r :=
  let ⟨c, hc, hr⟩ := h
  ⟨c, mem_cons_of_mem _ hc, hr⟩

theorem Consistent.stored_committed (h : t.Consistent) (hs : t.stored = some record) :
    t.Committed record := by
  rw [h.stored] at hs
  obtain ⟨c, hc, hr⟩ := Option.map_eq_some_iff.mp hs
  exact ⟨c, List.mem_of_mem_head? hc, hr⟩

theorem Consistent.unique (h : t.Consistent) {r r' : ServerKeyRingRecord} (hr : t.Committed r)
    (hr' : t.Committed r') (heq : r.revision = r'.revision) : r = r' := by
  obtain ⟨c, hc, rfl⟩ := hr
  obtain ⟨c', hc', rfl⟩ := hr'
  exact h.linear.unique hc hc' heq

theorem Consistent.insert (h : t.Consistent) (hs : t.stored = none) (identity : NoiseIdentity) :
    (t.write ⟨.new identity, 0⟩ none).Consistent := by
  have hempty : t.commits = [] := by
    rw [h.stored, Option.map_eq_none_iff] at hs
    exact List.head?_eq_none_iff.mp hs
  refine ⟨?_, rfl⟩
  show Linear (_ :: t.commits)
  rw [hempty]
  exact ⟨rfl, identity, rfl⟩

/-- A mutation of the stored key ring. -/
theorem Consistent.save (h : t.Consistent) (hs : t.stored = some record) {operation : Operation}
    {candidate : ServerKeyRing} (happly : operation.apply record.keyring = .ok candidate) :
    (t.write ⟨candidate, record.revision + 1⟩ (some operation)).Consistent := by
  refine ⟨?_, rfl⟩
  show Linear (_ :: t.commits)
  have hlinear := h.linear
  rw [h.stored] at hs
  cases hc : t.commits with
  | nil =>
    rw [hc] at hs
    cases hs
  | cons previous =>
    rw [hc] at hs hlinear
    obtain rfl : previous.record = record := Option.some.inj hs
    exact ⟨⟨operation, rfl, happly⟩, rfl, hlinear⟩

end KeyRingTable

/-! ## 3. The instances -/

/-- What an instance knows at each point of its task, given its state. -/
def Task.Backed (t : KeyRingTable) (state : Option ServerKeyRingRecord) : Task → Prop
  | .absent | .creating | .created | .failed => state = none
  | .idle | .conflicted => True
  | .saving operation candidate expected =>
    ∃ s, state = some s ∧ s.revision = expected ∧ operation.apply s.keyring = .ok candidate
  | .saved candidate expected =>
    t.Committed ⟨candidate, expected + 1⟩ ∧ ∀ s ∈ state, s.revision ≤ expected
  | .installing record => t.Committed record ∧ ∀ s ∈ state, s.revision ≤ record.revision

/-- The state of an instance was committed, and so is what it is about to install. -/
structure Instance.Backed (t : KeyRingTable) (m : Instance) : Prop where
  state : ∀ s ∈ m.state, t.Committed s
  task : m.task.Backed t m.state

/-- Nobody else has saved since the instance at this point of its task has. -/
def Task.ReadsOwn (t : KeyRingTable) : Task → Prop
  | .saved _ expected => ∀ record ∈ t.stored, record.revision = expected + 1
  | _ => True

/-- An instance that has saved reads its own record back. -/
def Instance.ReadsOwn (t : KeyRingTable) (m : Instance) : Act → Prop
  | .readBack => m.task.ReadsOwn t
  | _ => True

instance Task.ReadsOwn.decidable (t : KeyRingTable) : ∀ task : Task, Decidable (task.ReadsOwn t)
  | .saved _ _ => inferInstanceAs (Decidable (∀ record ∈ t.stored, _))
  | .absent | .creating | .created | .failed | .idle | .saving _ _ _ | .conflicted
  | .installing _ => .isTrue trivial

instance Instance.ReadsOwn.decidable (t : KeyRingTable) (m : Instance) :
    ∀ a, Decidable (m.ReadsOwn t a)
  | .readBack => inferInstanceAs (Decidable (m.task.ReadsOwn t))
  | .load | .insert _ | .mutate _ | .save | .sync | .install => .isTrue trivial

theorem Instance.Backed.write (h : m.Backed t) (record : ServerKeyRingRecord)
    (operation : Option Operation) : m.Backed (t.write record operation) := by
  refine ⟨fun s hs => (h.state s hs).write, ?_⟩
  have htask := h.task
  revert htask
  cases m.task with
  | saved | installing => exact fun h => ⟨h.1.write, h.2⟩
  | absent | creating | created | failed | idle | conflicted | saving => exact id

/-- A step reads the table or writes one commit. -/
theorem Instance.act_table (t : KeyRingTable) (m : Instance) (a : Act) :
    (m.act t a).1 = t ∨ ∃ record operation, (m.act t a).1 = t.write record operation := by
  cases a <;> simp only [Instance.act] <;> (repeat' split) <;> first
    | exact .inl rfl
    | exact .inr ⟨_, _, rfl⟩

/-- Only an installation changes an instance's state. -/
theorem Instance.act_state (t : KeyRingTable) (m : Instance) (a : Act) :
    (m.act t a).2.state = m.state ∨
      ∃ record, m.task = .installing record ∧ (m.act t a).2.state = some record := by
  cases a <;> simp only [Instance.act] <;> (repeat' split) <;> first
    | exact .inl rfl
    | exact .inr ⟨_, ‹_›, rfl⟩

/-- The task changes, the state does not. -/
theorem Instance.Backed.withTask (h : m.Backed t) {task : Task} (htask : task.Backed t m.state) :
    Instance.Backed t { m with task } := ⟨h.state, htask⟩

/-- **One step of an instance** keeps the table consistent and the instance backed by it. -/
theorem Instance.Backed.act {a : Act} (ht : t.Consistent) (hm : m.Backed t) (hok : m.ReadsOwn t a) :
    (m.act t a).1.Consistent ∧ (m.act t a).2.Backed (m.act t a).1 := by
  have htask := hm.task
  -- the first state of the instance
  have hfirst : ∀ {record}, m.state = none → t.stored = some record →
      Instance.Backed t { m with task := .installing record } := fun hnone hstored =>
    hm.withTask ⟨ht.stored_committed hstored, fun s hs => nomatch hnone.symm.trans hs⟩
  cases a <;> simp only [Instance.act]
  case load =>
    split
    · rename_i heq hstored
      rw [heq] at htask
      exact ⟨ht, hfirst htask hstored⟩
    · rename_i heq _
      rw [heq] at htask
      exact ⟨ht, hm.withTask htask⟩
    · exact ⟨ht, hm⟩
  case insert =>
    split
    · rename_i heq
      rw [heq] at htask
      exact ⟨ht, hm.withTask htask⟩
    · rename_i heq _
      rw [heq] at htask
      exact ⟨ht, hm.withTask htask⟩
    · rename_i identity heq hstored
      rw [heq] at htask
      have hcreated : Instance.Backed t { m with task := .created } := hm.withTask htask
      exact ⟨ht.insert hstored identity, hcreated.write _ _⟩
    · exact ⟨ht, hm⟩
  case mutate =>
    split
    · rename_i state _ hstate
      split
      · exact ⟨ht, hm⟩
      · rename_i candidate happly
        split
        · exact ⟨ht, hm⟩
        · exact ⟨ht, hm.withTask ⟨state, hstate, rfl, happly⟩⟩
    · exact ⟨ht, hm⟩
  case save =>
    split
    · rename_i operation candidate expected record heq hstored
      rw [heq] at htask
      obtain ⟨s, hs, hrevision, happly⟩ := htask
      split
      · rename_i hsame
        -- the instance's state is the stored record: their revisions agree
        have hrecord : s = record :=
          ht.unique (hm.state s hs) (ht.stored_committed hstored) (hrevision.trans hsame.symm)
        subst hrecord hsame
        refine ⟨ht.save hstored happly, fun r hr => (hm.state r hr).write, ?_⟩
        refine ⟨⟨_, mem_cons_self, rfl⟩, fun r hr => ?_⟩
        obtain rfl : s = r := Option.some.inj (hs.symm.trans hr)
        exact Nat.le_refl _
      · exact ⟨ht, hm.withTask trivial⟩
    · exact ⟨ht, hm.withTask trivial⟩
    · exact ⟨ht, hm⟩
  case readBack =>
    simp only [Instance.ReadsOwn] at hok
    split
    · rename_i heq hstored
      rw [heq] at htask
      exact ⟨ht, hfirst htask hstored⟩
    · rename_i heq _
      rw [heq] at htask
      exact ⟨ht, hm.withTask htask⟩
    · rename_i candidate expected record heq hstored
      rw [heq] at htask hok
      have hrevision : record.revision = expected + 1 := hok record hstored
      refine ⟨ht, hm.withTask ⟨hrevision ▸ htask.1, fun s hs => ?_⟩⟩
      have hle := htask.2 s hs
      show s.revision ≤ record.revision
      omega
    · exact ⟨ht, hm.withTask trivial⟩
    · exact ⟨ht, hm.withTask trivial⟩
    · exact ⟨ht, hm⟩
  case sync =>
    split
    · rename_i state record _ hstate hstored
      split
      · exact ⟨ht, hm⟩
      · refine ⟨ht, hm.withTask ⟨ht.stored_committed hstored, fun s hs => ?_⟩⟩
        obtain rfl : state = s := Option.some.inj (hstate.symm.trans hs)
        omega
    · exact ⟨ht, hm⟩
  case install =>
    split
    · rename_i record heq
      rw [heq] at htask
      refine ⟨ht, fun s hs => ?_, trivial⟩
      obtain rfl : record = s := Option.some.inj hs
      exact htask.1
    · exact ⟨ht, hm⟩

/-! ## 4. Every interleaving -/

section Fleet

variable {I : Type} [DecidableEq I] {s : Managers I} {move : I × Act}

/-- The commits follow one another, the row holds the newest, and the key ring and revision an
    instance serves with were committed together. -/
structure Managers.Linearizable (s : Managers I) : Prop where
  table : s.shared.Consistent
  states : ∀ i, ∀ state ∈ (s.members i).state, s.shared.Committed state

/-- The acting instance's revision does not go back. -/
def Managers.NeverBack (s : Managers I) (move : I × Act) : Prop :=
  ∀ before ∈ (s.members move.1).state,
    ∀ after ∈ ((s.members move.1).act s.shared move.2).2.state, before.revision ≤ after.revision

/-- Read-backs find the instance's own record. -/
def Managers.ReadsOwn (s : Managers I) (move : I × Act) : Prop :=
  (s.members move.1).ReadsOwn s.shared move.2
  deriving Decidable

theorem Managers.step_backed (hi : s.Holds KeyRingTable.Consistent fun _ t m => m.Backed t)
    (hok : s.ReadsOwn move) :
    (s.step move).Holds KeyRingTable.Consistent fun _ t m => m.Backed t := by
  obtain ⟨i, a⟩ := move
  obtain ⟨htable, hown⟩ := Instance.Backed.act hi.shared (hi.members i) hok
  refine hi.step htable hown fun j m _ hm => ?_
  rcases Instance.act_table s.shared (s.members i) a with h | ⟨record, operation, h⟩
  · rw [h]
    exact hm
  · rw [h]
    exact hm.write record operation

omit [DecidableEq I] in
theorem Managers.neverBack_of_backed (hi : s.Holds KeyRingTable.Consistent fun _ t m => m.Backed t) :
    s.NeverBack move := by
  obtain ⟨i, a⟩ := move
  intro before hbefore after hafter
  have htask := (hi.members i).task
  rcases Instance.act_state s.shared (s.members i) a with h | ⟨record, htask', h⟩
  · rw [h] at hafter
    obtain rfl := Option.some.inj (hbefore.symm.trans hafter)
    exact Nat.le_refl _
  · rw [h] at hafter
    obtain rfl : record = after := Option.some.inj hafter
    rw [htask'] at htask
    exact htask.2 before hbefore

/-- **Linearizable in every interleaving** in which whoever has saved reads its own record back:
    one chain of commits from one identity, no lost update, only committed pairs in memory, and no
    instance's revision goes back. -/
theorem linearizable_while_read_back (moves : List (I × Act))
    (h : Along Managers.step Managers.ReadsOwn (Managers.start I) moves) :
    Throughout Managers.step Managers.Linearizable (Managers.start I) moves ∧
      Along Managers.step Managers.NeverBack (Managers.start I) moves := by
  have hstart : (Managers.start I).Holds KeyRingTable.Consistent fun _ t m => m.Backed t :=
    ⟨⟨trivial, rfl⟩, fun _ => ⟨fun _ hs => (by cases hs), rfl⟩⟩
  refine ⟨?_, ?_⟩
  · exact throughout_of_invariant (fun _ _ hi hok => Managers.step_backed hi hok)
      (fun _ hi => ⟨hi.shared, fun i => (hi.members i).state⟩) hstart h
  · exact along_of_invariant (fun _ _ hi hok => Managers.step_backed hi hok)
      (fun _ _ hi _ => Managers.neverBack_of_backed hi) hstart h

end Fleet

def prepareOf (byte : UInt8) : Operation := .prepare (.ok (identityOf byte, .replicate _ byte))

/-- Instance 0 creates the key ring, instance 1 loads it. -/
def bothLoaded : List (Nat × Act) :=
  [(0, .load), (0, .insert (.ok (identityOf 0))), (0, .readBack), (0, .install), (1, .load),
    (1, .install)]

/-- Instance 0 prepares a rotation, instance 1 learns of it and cancels it. -/
theorem linearizable_in_turn : Throughout Managers.step Managers.Linearizable (Managers.start Nat)
        (bothLoaded ++ [(0, .mutate (prepareOf 1)), (0, .save), (0, .readBack), (0, .install),
          (1, .sync), (1, .install), (1, .mutate .cancel), (1, .save), (1, .readBack)]) ∧
      Along Managers.step Managers.NeverBack (Managers.start Nat)
        (bothLoaded ++ [(0, .mutate (prepareOf 1)), (0, .save), (0, .readBack), (0, .install),
          (1, .sync), (1, .install), (1, .mutate .cancel), (1, .save), (1, .readBack)]) :=
  linearizable_while_read_back _ (by decide +kernel)

/-- **Mixed revisions**: instance 0 saves revision 1; before it reads the record back, instance 1
    cancels the rotation (revision 2). Instance 0 installs its own key ring, with the next key, under
    revision 2. -/
theorem late_read_back_mixes_revisions :
    ¬ Throughout Managers.step Managers.Linearizable (Managers.start Nat)
      (bothLoaded ++ [(0, .mutate (prepareOf 1)), (0, .save), (1, .sync), (1, .install),
        (1, .mutate .cancel), (1, .save), (1, .readBack), (1, .install), (0, .readBack),
        (0, .install)]) := by
  intro h
  exact absurd ((h _ (prefix_refl _)).states 0) (by decide +kernel)

end Smalux.Server.KeyRings
