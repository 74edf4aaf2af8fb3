/-
  Subject:   Replacements of one Agent's catalog and of its runtime configuration that run at the
             same time.

  With an expected revision a replacement claims the row with the revision before it touches anything
  else, and loses if somebody else was faster. Without one it reads the revision, replaces the rows
  and then writes the revision it has computed, without looking again.

  * **`revisions_identify_content`** -- in every interleaving in which no unconditional `UPDATE` finds
    another revision than the one its transaction has read, the successful calls return increasing
    revisions and what is stored is what the last of them has stored.
-/
import Smalux.Server.CatalogHistory
import Smalux.Server.RuntimeStore

namespace Smalux.Server

open Lib Lib.Transaction ReadCommitted List RevisionRow

variable {record : AgentJobCatalogRecord} {I : Type} {revision : Nat}

/-! ## 1. Catalogs of Jobs -/

/-- A call of `replace_agent_job_catalog_if_revision` for the Agent. -/
structure CatalogReplacement where
  jobs : List Proto.JobDefinition
  expected : Option Nat

namespace CatalogReplacement

open CatalogTables

def program (agentId : String) (call : CatalogReplacement) :
    CatalogTransaction AgentJobCatalogRecord :=
  replaceAgentJobCatalogIfRevision agentId call.jobs call.expected

variable {agentId : String} {q : Statement}

/-- Only the statements on the catalog's row write it. -/
theorem avoids_row (h : ∀ a row, q ≠ .catalog a row) (d : CatalogTables) :
    RowKey.catalog agentId ∉ engine.keys (engine.writes d q) := by
  intro hmem
  obtain ⟨w, hw, hkey⟩ := mem_map.mp hmem
  cases q with
  | catalog a row => exact h a row rfl
  | findLatestVersion | findVersion | findOperation => cases hw
  | insertVersion key row =>
    have hw : w ∈ (if d.versions.contains key then [] else [RowWrite.version key row]) := hw
    split at hw
    · cases hw
    · cases mem_singleton.mp hw
      cases hkey
  | insertJob key row =>
    have hw : w ∈ (if d.jobs.contains key then [] else [RowWrite.job key row]) := hw
    split at hw
    · cases hw
    · cases mem_singleton.mp hw
      cases hkey
  | deleteJobs =>
    obtain ⟨key, _, rfl⟩ := mem_map.mp hw
    cases hkey
  | insertOperation row =>
    have hw : w ∈ (if d.insertOperationOutcome row = .inserted
      then [RowWrite.operation row.operationId row] else []) := hw
    split at hw
    · cases mem_singleton.mp hw
      cases hkey
    · cases hw
  | supersedeOperations =>
    obtain ⟨row, _, rfl⟩ := mem_map.mp hw
    cases hkey

theorem avoids_statement (h : ∀ a row, q ≠ .catalog a row) :
    Avoids engine (RowKey.catalog agentId) (statement q : CatalogTransaction q.Answer) :=
  .statement (avoids_row h)

theorem avoids_checkHistory : ∀ jobs : List (Proto.JobDefinition × String),
    Avoids engine (RowKey.catalog agentId) (checkHistory agentId jobs)
  | [] => trivial
  | (definition, kind) :: rest => by
    refine .bind (.ofExcept _) fun revision => .bind (avoids_statement (by simp)) fun latest => ?_
    split
    · exact trivial
    · exact avoids_checkHistory rest

theorem avoids_recordVersion (definition : Proto.JobDefinition) (kind : String) :
    Avoids engine (RowKey.catalog agentId) (recordVersion agentId definition kind) := by
  refine .bind (avoids_statement (by simp)) fun previous => ?_
  split
  · split <;> exact trivial
  · refine .bind (avoids_statement (by simp)) fun ok => ?_
    unfold accepted
    split <;> exact trivial

theorem avoids_storeJobs : ∀ jobs : List (Proto.JobDefinition × String),
    Avoids engine (RowKey.catalog agentId) (storeJobs agentId jobs)
  | [] => trivial
  | (definition, kind) :: rest => by
    refine .bind (avoids_recordVersion definition kind) fun _ =>
      .bind (avoids_statement (by simp)) fun ok => ?_
    unfold accepted
    split
    · exact avoids_storeJobs rest
    · exact trivial

theorem claims_replaceCatalogAt (validated : List (Proto.JobDefinition × String))
    (expected previous : Option Nat) : (catalogRow agentId).ClaimsRow (rowVersion previous)
      (replaceCatalogAt agentId validated expected previous) := by
  unfold replaceCatalogAt
  split
  · exact trivial
  · rename_i hnot
    have hexpected : RevisionRow.Expects previous expected := (Bool.not_eq_true _).mp hnot
    cases expected with
    | none =>
      -- the row is written at the end
      simp only [createIfFirst_none, advanceIfExpected_none, pure_bind]
      refine .bind (.ofExcept _) fun revision => .bind (avoids_checkHistory validated) fun _ =>
        .bind (avoids_statement (by simp)) fun _ => .bind (avoids_storeJobs validated) fun _ => ?_
      exact claims_publish.append
    | some =>
      cases previous with
      | none =>
        cases hexpected.zero
        exact claims_create.append
      | some =>
        cases hexpected.eq
        simp only [createIfFirst_some, advanceIfExpected_some, pure_bind]
        exact .bind (.ofExcept _) fun revision => claims_advance.append

/-- **A replacement claims the row** at the revision it has read. -/
theorem opens_program (call : CatalogReplacement) :
    Opens engine (catalogRow agentId).version (RowKey.catalog agentId) fair
      (call.program agentId) := by
  refine Opens.append (.check fun _ _ => .check fun validated _ => .check fun _ _ => fun d => ?_)
  exact ⟨rfl, claims_replaceCatalogAt validated call.expected (d.catalogs.get agentId)⟩

theorem version_write (d : CatalogTables) (w : RowWrite)
    (h : engine.key w ≠ RowKey.catalog agentId) :
    (catalogRow agentId).version (engine.write d w) = (catalogRow agentId).version d := by
  cases w with
  | catalog a revision =>
    have hne : agentId ≠ a := fun he => h (congrArg RowKey.catalog he.symm)
    show rowVersion ((d.catalogs.insert a revision).get agentId) = _
    rw [Table.get_insert, if_neg hne]
    rfl
  | job | removeJob | version | operation => rfl

/-- A success moves the revision on by one. -/
theorem program_ok {call : CatalogReplacement} {d d' : CatalogTables}
    (h : (call.program agentId).exec engine d = (.ok record, d')) :
    Replaced agentId call.jobs record d d' := replaceIfRevision_ok h

theorem version_lt {call : CatalogReplacement} {d d' : CatalogTables}
    (h : (call.program agentId).exec engine d = (.ok record, d')) :
    (catalogRow agentId).version d < (catalogRow agentId).version d' := by
  have hreplaced := program_ok h
  show rowVersion (d.catalogs.get agentId) < rowVersion (d'.catalogs.get agentId)
  rw [hreplaced.catalogs, if_pos rfl, hreplaced.revision]
  cases d.catalogs.get agentId with
  | none => exact Nat.succ_pos _
  | some => exact Nat.lt_succ_self _

/-- Any number of replacements of one Agent's catalog on one database. -/
abbrev Replacements (I : Type) :=
  System DatabaseError Statement Statement.Answer AgentJobCatalogRecord CatalogTables RowWrite RowKey
    CatalogReplacement I

def step {I : Type} [DecidableEq I] (agentId : String) (s : Replacements I)
    (move : I × Act CatalogReplacement) : Replacements I :=
  s.step engine (program agentId) move

/-- No unconditional update finds another revision than the one its transaction has read. -/
def Undisturbing {I : Type} (s : Replacements I) (move : I × Act CatalogReplacement) : Prop :=
  s.Fair engine fair move
  deriving Decidable

/-- The successful calls have returned increasing revisions, and the stored Jobs are exactly those of
    the last one. -/
structure Identifies {I : Type} (agentId : String) (s : Replacements I) : Prop where
  increasing :
    (s.history.map fun entry => entry.2.catalog.catalogRevision).Pairwise (· > ·)
  exact_rows : ∀ call record earlier, s.history = (call, record) :: earlier →
    Stores s.committed agentId call.jobs ∧
      s.committed.catalogs.get agentId = some record.catalog.catalogRevision

theorem identifies_of_serial {d₀ : CatalogTables} {s : Replacements I}
    (h : Serial engine (program agentId) d₀ s.history s.committed) : Identifies agentId s := by
  have hnumber : ∀ call d (record : AgentJobCatalogRecord) d',
      (program agentId call).exec engine d = (.ok record, d') →
        (d.catalogs.get agentId).getD 0 < record.catalog.catalogRevision ∧
          (d'.catalogs.get agentId).getD 0 = record.catalog.catalogRevision := by
    intro call d record d' hexec
    have hreplaced := program_ok hexec
    rw [hreplaced.catalogs, if_pos rfl, hreplaced.revision]
    exact ⟨Nat.lt_succ_self _, rfl⟩
  refine ⟨(Serial.increasing hnumber h).1, fun call record earlier hhistory => ?_⟩
  rw [hhistory] at h
  obtain ⟨before, _, hexec⟩ := h
  have hreplaced := program_ok hexec
  exact ⟨hreplaced.stores, (hreplaced.catalogs agentId).trans (if_pos rfl)⟩

theorem identifies_throughout [DecidableEq I] (d₀ : CatalogTables)
    {moves : List (I × Act CatalogReplacement)}
    (h : Along (step agentId) Undisturbing (System.start d₀) moves) :
    Throughout (step agentId) (Identifies agentId) (System.start d₀) moves := by
  intro past hpast
  exact identifies_of_serial (serializable version_write opens_program
    (fun call d record d' hexec => version_lt hexec) h past hpast)

end CatalogReplacement

/-! ## 2. Runtime configurations -/

/-- A call of `replace_agent_plugin_runtime_if_revision` for the Agent. -/
structure RuntimeReplacement where
  runtimes : List StoredPluginRuntime
  expected : Option Nat

namespace RuntimeReplacement

open RuntimeTables

def program (agentId : String) (call : RuntimeReplacement) : RuntimeTransaction Nat :=
  replaceAgentPluginRuntimeIfRevision agentId call.runtimes call.expected

variable {agentId : String}

theorem avoids_deleteRuntimes :
    Avoids engine (RuntimeRow.catalog agentId) (RuntimeSql.deleteRuntimes agentId) := by
  refine .statement fun d hmem => ?_
  obtain ⟨w, hw, hkey⟩ := mem_map.mp hmem
  obtain ⟨e, _, rfl⟩ := mem_map.mp hw
  cases hkey

theorem avoids_insertRuntime (row : AgentPluginRuntime) :
    Avoids engine (RuntimeRow.catalog agentId) (RuntimeSql.insertRuntime row) := by
  refine .statement fun d hmem => ?_
  obtain ⟨w, hw, hkey⟩ := mem_map.mp hmem
  have hw : w ∈ (if d.runtimes.contains row.runtimeKey then [] else [RuntimeWrite.runtime row]) := hw
  split at hw
  · cases hw
  · cases mem_singleton.mp hw
    cases hkey

theorem avoids_storeRuntimes : ∀ runtimes : List StoredPluginRuntime,
    Avoids engine (RuntimeRow.catalog agentId) (storeRuntimes agentId runtimes)
  | [] => trivial
  | runtime :: rest => by
    refine .bind (avoids_insertRuntime _) fun ok => ?_
    split
    · exact avoids_storeRuntimes rest
    · exact trivial

theorem claims_replaceRuntimeAt (runtimes : List StoredPluginRuntime)
    (expected previous : Option Nat) : (runtimeRow agentId).ClaimsRow (rowVersion previous)
      (replaceRuntimeAt agentId runtimes expected previous) := by
  unfold replaceRuntimeAt
  split
  · exact trivial
  · rename_i hnot
    have hexpected : RevisionRow.Expects previous expected := (Bool.not_eq_true _).mp hnot
    cases expected with
    | none =>
      simp only [createIfFirst_none, advanceIfExpected_none, pure_bind]
      refine .bind (.ofExcept _) fun revision => .bind avoids_deleteRuntimes fun _ =>
        .bind (avoids_storeRuntimes runtimes) fun _ => ?_
      exact claims_publish.append
    | some =>
      refine .bind (.ofExcept _) fun revision => ?_
      cases previous with
      | none =>
        cases hexpected.zero
        exact claims_create.append
      | some =>
        cases hexpected.eq
        exact claims_advance.append

theorem opens_program (call : RuntimeReplacement) :
    Opens engine (runtimeRow agentId).version (RuntimeRow.catalog agentId) fair
      (call.program agentId) := by
  refine .check fun runtimes _ => .check fun _ _ => fun d => ?_
  exact ⟨rfl, claims_replaceRuntimeAt runtimes call.expected (d.catalogs.get agentId)⟩

theorem version_write (d : RuntimeTables) (w : RuntimeWrite)
    (h : engine.key w ≠ RuntimeRow.catalog agentId) :
    (runtimeRow agentId).version (engine.write d w) = (runtimeRow agentId).version d := by
  cases w with
  | catalog a revision =>
    have hne : agentId ≠ a := fun he => h (congrArg RuntimeRow.catalog he.symm)
    show rowVersion ((d.catalogs.insert a revision).get agentId) = _
    rw [Table.get_insert, if_neg hne]
    rfl
  | runtime | removeRuntime => rfl

theorem program_ok {call : RuntimeReplacement} {d d' : RuntimeTables}
    (h : (call.program agentId).exec engine d = (.ok revision, d')) :
    RuntimesReplaced agentId call.runtimes revision d d' := (replacePluginRuntime_ok h).1

theorem version_lt {call : RuntimeReplacement} {d d' : RuntimeTables}
    (h : (call.program agentId).exec engine d = (.ok revision, d')) :
    (runtimeRow agentId).version d < (runtimeRow agentId).version d' := by
  have hreplaced := program_ok h
  show rowVersion (d.catalogs.get agentId) < rowVersion (d'.catalogs.get agentId)
  rw [hreplaced.catalogs, if_pos rfl, hreplaced.next]
  cases d.catalogs.get agentId with
  | none => exact Nat.succ_pos _
  | some => exact Nat.lt_succ_self _

/-- Any number of replacements of one Agent's runtime configuration on one database. -/
abbrev Replacements (I : Type) :=
  System DatabaseError RuntimeStatement RuntimeStatement.Answer Nat RuntimeTables RuntimeWrite
    RuntimeRow RuntimeReplacement I

def step {I : Type} [DecidableEq I] (agentId : String) (s : Replacements I)
    (move : I × Act RuntimeReplacement) : Replacements I :=
  s.step engine (program agentId) move

def Undisturbing {I : Type} (s : Replacements I) (move : I × Act RuntimeReplacement) : Prop :=
  s.Fair engine fair move
  deriving Decidable

structure Identifies {I : Type} (agentId : String) (s : Replacements I) : Prop where
  increasing : (s.history.map fun entry => entry.2).Pairwise (· > ·)
  exact_rows : ∀ call revision earlier, s.history = (call, revision) :: earlier →
    (∀ runtime, (∃ key, s.committed.runtimes.get key = some ⟨agentId, runtime⟩) ↔
      runtime ∈ call.runtimes) ∧ s.committed.catalogs.get agentId = some revision

theorem identifies_of_serial {d₀ : RuntimeTables} {s : Replacements I}
    (h : Serial engine (program agentId) d₀ s.history s.committed) : Identifies agentId s := by
  have hnumber : ∀ call d (revision : Nat) d',
      (program agentId call).exec engine d = (.ok revision, d') →
        (d.catalogs.get agentId).getD emptyRuntimeRevision < revision ∧
          (d'.catalogs.get agentId).getD emptyRuntimeRevision = revision := by
    intro call d revision d' hexec
    have hreplaced := program_ok hexec
    rw [hreplaced.catalogs, if_pos rfl, hreplaced.next]
    exact ⟨Nat.lt_succ_self _, rfl⟩
  refine ⟨(Serial.increasing hnumber h).1, fun call revision earlier hhistory => ?_⟩
  rw [hhistory] at h
  obtain ⟨before, _, hexec⟩ := h
  have hreplaced := program_ok hexec
  exact ⟨hreplaced.rows, (hreplaced.catalogs agentId).trans (if_pos rfl)⟩

theorem identifies_throughout [DecidableEq I] (d₀ : RuntimeTables)
    {moves : List (I × Act RuntimeReplacement)}
    (h : Along (step agentId) Undisturbing (System.start d₀) moves) :
    Throughout (step agentId) (Identifies agentId) (System.start d₀) moves := by
  intro past hpast
  exact identifies_of_serial (serializable version_write opens_program
    (fun call d revision d' hexec => version_lt hexec) h past hpast)

end RuntimeReplacement

/-! ## 3. Both -/

/-- **Revisions identify content**: for any number of calls for one Agent, in every interleaving of
    their statements in which no unconditional update finds another revision than the one its
    transaction has read. -/
theorem revisions_identify_content (I : Type) [DecidableEq I] (agentId : String) :
    (∀ (d₀ : CatalogTables) (moves : List (I × Act CatalogReplacement)),
      Along (CatalogReplacement.step agentId) CatalogReplacement.Undisturbing (System.start d₀) moves →
      Throughout (CatalogReplacement.step agentId) (CatalogReplacement.Identifies agentId)
        (System.start d₀) moves) ∧
    ∀ (d₀ : RuntimeTables) (moves : List (I × Act RuntimeReplacement)),
      Along (RuntimeReplacement.step agentId) RuntimeReplacement.Undisturbing (System.start d₀) moves →
      Throughout (RuntimeReplacement.step agentId) (RuntimeReplacement.Identifies agentId)
        (System.start d₀) moves :=
  ⟨fun d₀ _ h => CatalogReplacement.identifies_throughout d₀ h,
    fun d₀ _ h => RuntimeReplacement.identifies_throughout d₀ h⟩

/-! ## 4. Two contents under one revision -/

section Clash

/-- Two members start, both read, and then one after the other runs to its end. -/
def bothRead {C : Type} (first second : C) : List (Bool × Act C) :=
  [(false, .begin first), (true, .begin second), (false, .statement), (true, .statement)] ++
    List.replicate 10 (false, .statement) ++ List.replicate 10 (true, .statement)

def storedOnce : CatalogTables :=
  (CatalogCall.direct "agent-1" [cpuJob 1 1] none).step .lenient .empty

def pluginRuntime (id : String) : StoredPluginRuntime :=
  ⟨id, "1.0.0", List.replicate 32 0, 1, [], 1⟩

def configuredOnce : RuntimeTables :=
  ((replaceAgentPluginRuntimeIfRevision "agent-1" [pluginRuntime "disk"] none).atomically
    RuntimeTables.engine .empty).2

/-- An unconditional replacement overlaps with one that expects the revision both have read: the
    second one loses. -/
theorem overlapping_replacements_identify :
    Throughout (CatalogReplacement.step "agent-1") (CatalogReplacement.Identifies "agent-1")
        (System.start storedOnce) (bothRead ⟨[cpuJob 2 1], none⟩ ⟨[cpuJob 3 1], some 1⟩) ∧
      Throughout (RuntimeReplacement.step "agent-1") (RuntimeReplacement.Identifies "agent-1")
        (System.start configuredOnce)
        (bothRead ⟨[pluginRuntime "cpu"], none⟩ ⟨[pluginRuntime "net"], some 2⟩) :=
  ⟨(revisions_identify_content Bool "agent-1").1 _ _ (by decide +kernel),
    (revisions_identify_content Bool "agent-1").2 _ _ (by decide +kernel)⟩

/-- Two unconditional replacements that have read the same revision both succeed and return the same
    new one: of a catalog, and of a runtime configuration. -/
theorem two_contents_one_revision :
    ((run (CatalogReplacement.step "agent-1") (System.start storedOnce)
        (bothRead ⟨[cpuJob 2 1], none⟩ ⟨[cpuJob 3 1], none⟩)).history.map fun entry =>
          (entry.1.jobs, entry.2.catalog.catalogRevision)) =
        [([cpuJob 3 1], 2), ([cpuJob 2 1], 2)] ∧
      ((run (RuntimeReplacement.step "agent-1") (System.start configuredOnce)
        (bothRead ⟨[pluginRuntime "cpu"], none⟩ ⟨[pluginRuntime "net"], none⟩)).history.map
          fun entry => (entry.1.runtimes, entry.2)) =
        [([pluginRuntime "net"], 3), ([pluginRuntime "cpu"], 3)] := by
  decide +kernel

end Clash

end Smalux.Server
