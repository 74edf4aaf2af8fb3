/-
  Subject:   One call of the scheduler, as the controller sees it.

  Each call finds the actor wherever its own steps have brought it. For each command: when it is
  served (`Served`), what the controller then reads in the answer, and what the call does to the
  cores of the Jobs. A call that is not served is answered with an error and changes no core.
-/
import Smalux.Remote.Controller
import Smalux.Scheduler.Answers

namespace Smalux.Remote

open Lib Scheduler SchedulerActor List

/-! ## 1. Calls -/

/-- A command is answered by its handler, before the loop goes on. A dead actor answers nothing. -/
def serve (env : Env) (a : SchedulerActor) (command : Command) : Answer × SchedulerActor :=
  if a.panicked then (none, a)
  else (some (a.handleCommand env command).1, a.turn env (.command command))

/-- What the actor does by itself. -/
abbrev Internal := { message : Message // message.internal = true }

def internalTurn (env : Env) (a : SchedulerActor) (message : Internal) : SchedulerActor :=
  a.turn env message.1

/-- What the actor does before each call. -/
abbrev Script := List (List Internal)

theorem calm_interlude (env : Env) (messages : List Internal) (a : SchedulerActor) :
    Calm a (run (internalTurn env) a messages) := by
  induction messages generalizing a with
  | nil => exact .refl a
  | cons message rest ih => exact (calm_turn env a message.2).trans (ih _)

theorem interlude_alive (env : Env) (messages : List Internal) {a : SchedulerActor}
    (h : (run (internalTurn env) a messages).panicked = false) : a.panicked = false := by
  induction messages generalizing a with
  | nil => exact h
  | cons message rest ih =>
    cases hp : a.panicked with
    | true =>
      have hsame : internalTurn env a message = a := if_pos hp
      have hnext := ih (a := internalTurn env a message) h
      rw [hsame, hp] at hnext
      exact hnext
    | false => rfl

/-- The actor lives and can do what it is asked. -/
def Served (env : Env) (a : SchedulerActor) (command : Command) : Prop :=
  a.panicked = false ∧ Possible env a command
  deriving Decidable

section Serve

variable {env : Env} {a : SchedulerActor} {command : Command}

theorem serve_dead (h : a.panicked = true) : serve env a command = (none, a) := if_pos h

theorem not_served_dead (h : a.panicked = true) : ¬ Served env a command := by
  intro hs
  rw [hs.1] at h
  cases h

/-- A dead actor stays dead. -/
theorem serve_alive (h : (serve env a command).2.panicked = false) : a.panicked = false := by
  cases hp : a.panicked with
  | true => rw [serve_dead hp, hp] at h; cases h
  | false => rfl

theorem serve_answer (h : a.panicked = false) :
    (serve env a command).1 = some (a.handleCommand env command).1 := by
  unfold serve
  rw [if_neg (by simp [h])]

/-- What the loop does after the handler leaves the cores alone. -/
theorem serve_cores (h : a.panicked = false) :
    SameCores (a.handleCommand env command).2 (serve env a command).2 := by
  intro id
  unfold serve
  rw [if_neg (by simp [h])]
  unfold turn
  rw [if_neg (by simp [h])]
  dsimp only
  split
  · rfl
  · exact settle_core _ id

variable {α : Type} {read : Answer → Except SchedulerError α} {R : Prop}

variable (env a command read) in
/-- The call is not served: an error is read in the answer, and no core has changed. -/
def Refused : Prop :=
  ¬ Served env a command ∧ (∃ e, read (serve env a command).1 = .error e) ∧
    SameCores a (serve env a command).2

variable (env a command read) in
/-- The actor is dead, and that is what is read in the answer. -/
def Unanswered : Prop :=
  a.panicked = true ∧ read (serve env a command).1 = .error .closed ∧
    SameCores a (serve env a command).2

theorem unanswered_or (hdead : read none = .error .closed)
    (h : a.panicked = false → SameCores (a.handleCommand env command).2 (serve env a command).2 → R) :
    Unanswered env a command read ∨ R := by
  cases hp : a.panicked with
  | true =>
    unfold Unanswered
    rw [serve_dead hp]
    exact .inl ⟨hp, hdead, fun _ => rfl⟩
  | false => exact .inr (h hp (serve_cores hp))

/-- A call is refused, by a dead actor or by the handler, or the handler did what it was asked. -/
theorem refused_or (hdead : read none = .error .closed)
    (h : a.panicked = false → SameCores (a.handleCommand env command).2 (serve env a command).2 →
      (¬ Possible env a command ∧ (∃ e, read (some (a.handleCommand env command).1) = .error e) ∧
        SameCores a (a.handleCommand env command).2) ∨ R) : Refused env a command read ∨ R := by
  rcases unanswered_or hdead (fun hp hcores => And.intro hp (And.intro hcores (h hp hcores))) with
    ⟨hp, he, hsame⟩ | ⟨hp, hcores, ⟨hno, he, hsame⟩ | hdone⟩
  · exact .inl ⟨not_served_dead hp, ⟨_, he⟩, hsame⟩
  · exact .inl ⟨fun hs => hno hs.2, by rwa [serve_answer hp], hsame.trans hcores⟩
  · exact .inr hdone

end Serve

/-! ## 2. Commands on one Job -/

section OneJob

variable (env : Env) (a : SchedulerActor) (id : JobId) (version : Nat)

/-- **A disable request.** -/
theorem serve_disable (reason : String) : Refused env a (.disable id version reason) Answer.job ∨
      ∃ core snapshot, Served env a (.disable id version reason) ∧ AtVersion a id version core ∧
        (serve env a (.disable id version reason)).1.job = .ok snapshot ∧
        snapshot.version = version + 1 ∧
        CoreSet a id (some ⟨core.settings, .disabled reason, version + 1⟩)
          (serve env a (.disable id version reason)).2 := by
  refine refused_or rfl fun hp hcores => ?_
  rcases disableJob_answer env a id version reason with
    hno | ⟨core, snapshot, hat, hv, hok, hsnap, hset⟩
  · exact .inl hno
  · rw [serve_answer hp]
    exact .inr ⟨core, snapshot, ⟨hp, ⟨core, hat⟩, hv⟩, hat, hok, (hsnap.core hset.here).2.1,
      hset.same_trans hcores⟩

/-- **An enable request**: nothing happens to a Job that is Enabled. -/
theorem serve_enable : Refused env a (.enable id version) Answer.job ∨
      ∃ core snapshot, Served env a (.enable id version) ∧ AtVersion a id version core ∧
        (serve env a (.enable id version)).1.job = .ok snapshot ∧
        ((core.state = .enabled ∧ snapshot.version = version ∧
            SameCores a (serve env a (.enable id version)).2) ∨
          (core.state ≠ .enabled ∧ snapshot.version = version + 1 ∧
            CoreSet a id (some ⟨core.settings, .enabled, version + 1⟩)
              (serve env a (.enable id version)).2)) := by
  refine refused_or rfl fun hp hcores => ?_
  rcases enableJob_answer env a id version with
    ⟨he, hsame, hno⟩ | ⟨core, snapshot, hat, hok, hsnap, hcase⟩
  · refine .inl ⟨?_, he, hsame⟩
    rintro ⟨core, hat, hs | hen⟩
    · exact (hno core hat).1 hs
    · exact (hno core hat).2 hen
  · rw [serve_answer hp]
    refine .inr ⟨core, snapshot, ⟨hp, core, hat, ?_⟩, hat, hok, ?_⟩
    · exact hcase.imp And.left fun h => h.2.1
    · rcases hcase with ⟨hs, hsame⟩ | ⟨hs, -, hset⟩
      · have hcore := hsnap.core ((hsame id).trans hat.1)
        exact .inl ⟨hs, hcore.2.1.trans hat.2, hsame.trans hcores⟩
      · exact .inr ⟨hs, (hsnap.core hset.here).2.1, hset.same_trans hcores⟩

/-- **An update.** -/
theorem serve_update (patch : JobPatch) : Refused env a (.update id version patch) Answer.job ∨
      ∃ core snapshot, Served env a (.update id version patch) ∧ AtVersion a id version core ∧
        (serve env a (.update id version patch)).1.job = .ok snapshot ∧
        snapshot.id = id ∧ snapshot.version = version + 1 ∧ snapshot.state = core.state ∧
        CoreSet a id (some ⟨core.settings.patched patch, core.state, version + 1⟩)
          (serve env a (.update id version patch)).2 := by
  refine refused_or rfl fun hp hcores => ?_
  rcases updateJob_answer env a id version patch with
    ⟨hno, he, hsame⟩ | ⟨core, snapshot, hat, -, hplan, hok, hsnap, hset⟩
  · exact .inl ⟨fun h => Bool.false_ne_true (hno.symm.trans h), he, hsame⟩
  · obtain ⟨hid, hversion, hstate⟩ := hsnap.core hset.here
    rw [serve_answer hp]
    exact .inr ⟨core, snapshot, ⟨hp, hplan⟩, hat, hok, hid, hversion, hstate,
      hset.same_trans hcores⟩

/-- **A deletion.** -/
theorem serve_delete : Refused env a (.delete id version) Answer.deleted ∨
      ∃ core, Served env a (.delete id version) ∧ AtVersion a id version core ∧
        (serve env a (.delete id version)).1.deleted = .ok () ∧
        CoreSet a id none (serve env a (.delete id version)).2 := by
  refine refused_or rfl fun hp hcores => ?_
  rcases deleteJob_answer env a id version true with ⟨hno, he, hsame⟩ | ⟨core, hat, hok, hset⟩
  · exact .inl ⟨fun ⟨core, hat⟩ => hno core hat, he, hsame⟩
  · rw [serve_answer hp]
    exact .inr ⟨core, ⟨hp, core, hat⟩, hat, hok, hset.same_trans hcores⟩

/-- **An installation**, at version 1. -/
theorem serve_install (enabled : Bool) (trigger : Trigger) (task : TaskBinding)
    (options : JobOptions) :
    Refused env a (.add (some id) version enabled trigger task options) Answer.added ∨
      (Served env a (.add (some id) version enabled trigger task options) ∧ a.coreOf id = none ∧
        (serve env a (.add (some id) version enabled trigger task options)).1.added = .ok id ∧
        CoreSet a id (some ⟨.fresh trigger task options, freshState enabled, version⟩)
          (serve env a (.add (some id) version enabled trigger task options)).2) := by
  refine refused_or rfl fun hp hcores => ?_
  rcases addJob_answer env a id version enabled trigger task options with
    ⟨hno, he, hsame⟩ | ⟨hacc, hnone, hok, hset⟩
  · exact .inl ⟨fun h => Bool.false_ne_true (hno.symm.trans h), he, hsame⟩
  · rw [serve_answer hp]
    exact .inr ⟨⟨hp, hacc⟩, hnone, hok, hset.same_trans hcores⟩

/-- **Reading a Job back.** -/
theorem serve_get : Unanswered env a (.get id) Answer.found ∨
      (a.panicked = false ∧ SameCores a (serve env a (.get id)).2 ∧
        ∃ found, (serve env a (.get id)).1.found = .ok found ∧
          found.map (fun snapshot => (snapshot.version, snapshot.state)) =
            (a.coreOf id).map fun core => (core.version, core.state)) := by
  refine unanswered_or rfl fun hp hcores => ?_
  rw [serve_answer hp]
  refine ⟨hp, hcores, _, rfl, ?_⟩
  rw [coreOf, Option.map_map, Option.map_map]
  rfl

end OneJob

/-! ## 3. Commands on the whole table -/

/-- The version a list of snapshots has for an id. -/
theorem versionIn_eq {a : SchedulerActor} {snapshots : List JobSnapshot} (id : JobId)
    (h : ∀ snapshot ∈ snapshots, SnapshotOf a snapshot.id snapshot) : versionIn snapshots id =
      if id ∈ snapshots.map JobSnapshot.id then (a.coreOf id).map JobCore.version else none := by
  unfold versionIn
  cases hf : snapshots.reverse.find? fun snapshot => decide (snapshot.id = id) with
  | none =>
    have hnot : id ∉ snapshots.map JobSnapshot.id := by
      intro hm
      obtain ⟨snapshot, hs, hid⟩ := mem_map.mp hm
      have := List.find?_eq_none.mp hf snapshot (mem_reverse.mpr hs)
      exact this (decide_eq_true hid)
    rw [if_neg hnot]
    rfl
  | some snapshot =>
    have hfound := List.find?_some hf
    have hid : snapshot.id = id := of_decide_eq_true hfound
    have hmem : snapshot ∈ snapshots := mem_reverse.mp (List.mem_of_find?_eq_some hf)
    obtain ⟨job, hj, hsnap⟩ := h snapshot hmem
    rw [hid] at hj hsnap
    rw [if_pos (mem_map.mpr ⟨snapshot, hmem, hid⟩), coreOf_of_get hj, hsnap]
    rfl

section Table

variable (env : Env) (a : SchedulerActor)

/-- **A list of all Jobs.** -/
theorem serve_list : Unanswered env a .list Answer.jobs ∨
      (a.panicked = false ∧ SameCores a (serve env a .list).2 ∧
        ∃ snapshots, (serve env a .list).1.jobs = .ok snapshots ∧
          ∀ id, versionIn snapshots id = (a.coreOf id).map JobCore.version) := by
  refine unanswered_or rfl fun hp hcores => ?_
  rw [serve_answer hp]
  refine ⟨hp, hcores, _, rfl, fun id => ?_⟩
  have hsnaps : ∀ snapshot ∈ a.jobs.entries.map fun e => a.snapshot e.1 e.2,
      SnapshotOf a snapshot.id snapshot := by
    intro snapshot hs
    obtain ⟨e, he, rfl⟩ := mem_map.mp hs
    exact ⟨e.2, Table.get_eq_some_iff.mpr he, rfl⟩
  rw [versionIn_eq id hsnaps]
  split
  · rfl
  · rename_i hnot
    cases hj : a.jobs.get id with
    | none => rw [coreOf, hj]; rfl
    | some job =>
      refine absurd (mem_map.mpr ⟨a.snapshot id job, ?_, rfl⟩) hnot
      exact mem_map.mpr ⟨(id, job), Table.get_eq_some_iff.mp hj, rfl⟩

/-- **The limits.** -/
theorem serve_getConfig : Unanswered env a .getConfig Answer.config ∨
      (a.panicked = false ∧ SameCores a (serve env a .getConfig).2 ∧
        (serve env a .getConfig).1.config = .ok ⟨a.configRevision, a.config⟩) := by
  refine unanswered_or rfl fun hp hcores => ?_
  rw [serve_answer hp]
  exact ⟨hp, hcores, rfl⟩

/-- **A reconcile request that is served.** -/
theorem serve_reconcile (plan : SchedulerReconcilePlan) (h : Served env a (.reconcile plan)) :
    ∃ applied a', (serve env a (.reconcile plan)).1.reconciled = .ok applied ∧
      PlanApplied a plan a' ∧ SameCores a' (serve env a (.reconcile plan)).2 ∧
      ∀ id ∈ plan.targetIds, versionIn applied id = (a'.coreOf id).map JobCore.version := by
  obtain ⟨hp, hc, hpossible⟩ := h
  obtain ⟨a', hr, happlied⟩ := reconcileJobs_done hc hpossible
  have hcores : SameCores (a.handleCommand env (.reconcile plan)).2 _ := serve_cores hp
  have hhandle : a.handleCommand env (.reconcile plan) = (.reconciled (.ok _), a') :=
    congrArg (fun r => (Response.reconciled r.1, r.2)) hr
  rw [hhandle] at hcores
  refine ⟨_, a', by rw [serve_answer hp, hhandle]; rfl, happlied, hcores, fun id hid => ?_⟩
  have hsnaps : ∀ snapshot ∈ plan.targetIds.filterMap
      fun jobId => (a'.jobs.get jobId).map (a'.snapshot jobId), SnapshotOf a' snapshot.id snapshot := by
    intro snapshot hs
    obtain ⟨jobId, -, hsome⟩ := mem_filterMap.mp hs
    obtain ⟨job, hj, rfl⟩ := Option.map_eq_some_iff.mp hsome
    exact ⟨job, hj, rfl⟩
  rw [versionIn_eq id hsnaps]
  split
  · rfl
  · rename_i hnot
    cases hj : a'.jobs.get id with
    | none => rw [coreOf, hj]; rfl
    | some job =>
      refine absurd (mem_map.mpr ⟨a'.snapshot id job, ?_, rfl⟩) hnot
      exact mem_filterMap.mpr ⟨id, hid, by rw [hj]; rfl⟩

/-- A reconcile request that is not served is answered with an error. -/
theorem serve_reconcile_error (plan : SchedulerReconcilePlan)
    (h : ¬ Served env a (.reconcile plan)) :
    ∃ e, (serve env a (.reconcile plan)).1.reconciled = .error e := by
  cases hp : a.panicked with
  | true =>
    rw [serve_dead hp]
    exact ⟨.closed, rfl⟩
  | false =>
    rw [serve_answer hp]
    by_cases hc : PlanChecked env a plan
    · have hno : planPossible env a plan = false :=
        Bool.eq_false_iff.mpr fun hpossible => h ⟨hp, hc, hpossible⟩
      obtain ⟨e, _, hr, -⟩ := reconcileJobs_failed hc hno
      exact ⟨e, congrArg (fun r => r.1) hr⟩
    · obtain ⟨e, n, hr⟩ := reconcileJobs_refused hc
      exact ⟨e, congrArg (fun r => r.1) hr⟩

end Table

end Smalux.Remote
