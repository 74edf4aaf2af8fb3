/-
  Subject:   What a replacement of a catalog does to the tables, and what holds over whole histories
             of replacements.

  Bottom-up: each part of the transaction is described once, for the case that it goes well
  (`checkHistory_ok`, `storeJobs_ok`, and the rules for the row with the revision); an error rolls back.
  `Replaced` puts them together. The history needs only two facts about the tables (`Inv`): a stored
  Job is recorded as a version, and it is the newest version of its id.

  * `Replaced` -- everything a successful replacement has done;
  * **`catalog_store_sound`** -- for every sequence of replacements, direct or from the Web.
-/
import Smalux.Server.CatalogStore

namespace Smalux.Server

open Lib Lib.Transaction CatalogTables Table List RevisionRow Proto

variable {draft : WebJobOperationDraft} {result : WebJobCatalogMutationRecord} {jobId : List UInt8}
  {revision : Nat} {kind : String}

/-! ## 1. Single statements -/

section Statements

variable {α : Type} {d d' : CatalogTables}

theorem accepted_ok_iff {ok : Bool} {rest : CatalogTransaction α} {value : α} :
    (accepted ok rest).exec engine d = (.ok value, d') ↔
      ok = true ∧ rest.exec engine d = (.ok value, d') := by
  cases ok <;> simp [accepted]

theorem toI64_ok {n value : Nat} {text : String} (h : toI64 n text = .ok value) :
    value = n ∧ n ≤ maxI64 := by
  obtain ⟨hfits, h⟩ := ite_eq_ok h
  cases h
  exact ⟨rfl, Nat.le_of_not_lt hfits⟩

/-- The rows are gone, and nothing else. -/
theorem overlay_removeJobs (keys : List JobKey) : ∀ d : CatalogTables,
    engine.overlay d (keys.map .removeJob) = { d with jobs := keys.foldl remove d.jobs } := by
  induction keys with
  | nil => exact fun _ => rfl
  | cons k keys ih => exact fun d => ih (engine.write d (.removeJob k))

/-- `DELETE`: the other tables are as before, and of the Jobs those of other Agents are left. -/
theorem overlay_deleteJobs (d : CatalogTables) (agentId : String) : ∃ jobs : Table JobKey AgentJob,
      engine.overlay d (engine.writes d (.deleteJobs agentId)) = { d with jobs := jobs } ∧
        ∀ key, jobs.get key = if key.1 = agentId then none else d.jobs.get key := by
  refine ⟨_, overlay_removeJobs (d.jobs.keys.filter fun key => key.1 = agentId) d, fun key => ?_⟩
  rw [get_foldl_remove]
  by_cases hagent : key.1 = agentId
  · split
    · rfl
    · rename_i hmem
      refine get_eq_none_iff.mpr fun hkey => hmem ?_
      exact mem_filter.mpr ⟨hkey, by simpa using hagent⟩
  · rw [if_neg hagent, if_neg]
    intro hmem
    exact hagent (by simpa using (mem_filter.mp hmem).2)

/-- An update of operations leaves the other tables alone. -/
theorem overlay_operations (rows : List WebJobOperation) (f : WebJobOperation → WebJobOperation) :
    ∀ d : CatalogTables, ∃ operations,
      engine.overlay d (rows.map fun row => .operation row.operationId (f row)) =
        { d with operations := operations } := by
  induction rows with
  | nil => exact fun d => ⟨d.operations, rfl⟩
  | cons row rows ih =>
    intro d
    obtain ⟨operations, h⟩ := ih (engine.write d (.operation row.operationId (f row)))
    exact ⟨operations, h⟩

theorem overlay_insertOperation (d : CatalogTables) (row : WebJobOperation) :
    ∃ operations, engine.overlay d (engine.writes d (.insertOperation row)) =
      { d with operations := operations } := by
  show ∃ operations, engine.overlay d (if d.insertOperationOutcome row = .inserted then _ else _) = _
  split
  · exact ⟨d.operations.insert row.operationId row, rfl⟩
  · exact ⟨d.operations, rfl⟩

theorem overlay_supersede (d : CatalogTables) (agentId : String) (target : Nat) :
    ∃ operations, engine.overlay d (engine.writes d (.supersedeOperations agentId target)) =
      { d with operations := operations } :=
  overlay_operations _ (fun row => { row with state := .superseded }) d

end Statements

/-! ## 2. The rows -/

section Rows

variable {d d' : CatalogTables} {agentId : String} {definition : JobDefinition}

/-- The row a definition of this kind is stored as. -/
def AgentJob.of (definition : JobDefinition) (kind : String) : AgentJob :=
  ⟨definition.revision, definition.enabled, kind, definition⟩

theorem mem_recordedRevisions : revision ∈ d.recordedRevisions agentId jobId ↔
      ∃ row, d.versions.get (agentId, jobId, revision) = some row := by
  unfold CatalogTables.recordedRevisions
  simp only [mem_map, mem_filter, decide_eq_true_eq, mem_keys_iff]
  constructor
  · rintro ⟨⟨a, j, r⟩, ⟨hrow, rfl, rfl⟩, rfl⟩
    exact hrow
  · intro hrow
    exact ⟨(agentId, jobId, revision), ⟨hrow, rfl, rfl⟩, rfl⟩

/-- The revisions recorded before are not above the new one, and nothing is written. -/
theorem checkHistory_ok : ∀ {jobs : List (JobDefinition × String)},
    (checkHistory agentId jobs).exec engine d = (.ok (), d') → d' = d ∧ ∀ e ∈ jobs, ∀ revision row,
        d.versions.get (agentId, e.1.jobId, revision) = some row → revision ≤ e.1.revision
  | [], h => by
    cases h
    exact ⟨rfl, fun e he => absurd he not_mem_nil⟩
  | (definition, kind) :: rest, h => by
    obtain ⟨revision, hi64, h⟩ := ofExcept_bind_ok_iff.mp h
    obtain ⟨rfl, _⟩ := toI64_ok hi64
    obtain ⟨latest, d₂, hlatest, h⟩ := bind_ok_iff.mp h
    cases hlatest
    split at h
    · cases h
    · rename_i hnot
      obtain ⟨hd', hrest⟩ := checkHistory_ok h
      refine ⟨hd', fun e he revision row hrow => ?_⟩
      rcases mem_cons.mp he with rfl | he
      · have hmem := mem_recordedRevisions.mpr ⟨row, hrow⟩
        have hlatest : ((d.recordedRevisions agentId definition.jobId).max?).any
            (definition.revision < ·) = false := (Bool.not_eq_true _).mp hnot
        cases hmax : (d.recordedRevisions agentId definition.jobId).max? with
        | none =>
          rw [List.max?_eq_none_iff.mp hmax] at hmem
          cases hmem
        | some latest =>
          rw [hmax] at hlatest
          have hle := (List.max?_eq_some_iff.mp hmax).2 revision hmem
          have hnot : ¬ definition.revision < latest := by simpa using hlatest
          show revision ≤ definition.revision
          omega
      · exact hrest e he revision row hrow

/-- The version is recorded afterwards; if it was before, it is the same. -/
theorem recordVersion_ok (h : (recordVersion agentId definition kind).exec engine d = (.ok (), d')) :
    ∃ versions : Table VersionKey AgentJobVersion, d' = { d with versions := versions } ∧
      versions.get (agentId, definition.jobId, definition.revision) = some ⟨kind, definition⟩ ∧
      (∀ key row, d.versions.get key = some row → versions.get key = some row) ∧
      ∀ key row, versions.get key = some row → d.versions.get key = some row ∨
        key = (agentId, definition.jobId, definition.revision) := by
  obtain ⟨previous, d₁, hfind, h⟩ := bind_ok_iff.mp h
  cases hfind
  split at h
  · rename_i previous hprevious
    split at h
    · cases h
    · rename_i hsame
      have hget : d.versions.get (agentId, definition.jobId, definition.revision) = some previous :=
        hprevious
      obtain ⟨hkind, hdefinition⟩ : previous.taskKind = kind ∧ previous.definition = definition := by
        simpa [not_or] using hsame
      cases h
      refine ⟨d.versions, rfl, ?_, fun key row hrow => hrow, fun key row hrow => .inl hrow⟩
      rw [hget, ← hkind, ← hdefinition]
  · rename_i hprevious
    obtain ⟨ok, d₂, hinsert, h⟩ := bind_ok_iff.mp h
    cases hinsert
    obtain ⟨_, h⟩ := accepted_ok_iff.mp h
    cases h
    have hget : d.versions.get (agentId, definition.jobId, definition.revision) = none := hprevious
    have hnot := contains_eq_false_iff.mpr hget
    refine ⟨d.versions.insert (agentId, definition.jobId, definition.revision) ⟨kind, definition⟩,
      ?_, ?_, fun key row hrow => ?_, fun key row hrow => ?_⟩
    · show engine.overlay d (if d.versions.contains _ then _ else _) = _
      rw [hnot]
      rfl
    · rw [get_insert, if_pos rfl]
    · rw [get_insert, if_neg]
      · exact hrow
      · rintro rfl
        rw [hget] at hrow
        cases hrow
    · rw [get_insert] at hrow
      split at hrow
      · rename_i hkey
        exact .inr hkey
      · exact .inl hrow

/-- What storing the Jobs does: each has its row and its version, the others keep theirs. -/
structure Stored (agentId : String) (jobs : List (JobDefinition × String))
    (d d' : CatalogTables) : Prop where
  catalogs : d'.catalogs = d.catalogs
  operations : d'.operations = d.operations
  /-- the ids were free, and stay apart -/
  free : ∀ e ∈ jobs, d.jobs.get (agentId, e.1.jobId) = none
  distinct : (jobs.map fun e => e.1.jobId).Nodup
  rows : ∀ e ∈ jobs, d'.jobs.get (agentId, e.1.jobId) = some (AgentJob.of e.1 e.2)
  otherRows : ∀ key, (∀ e ∈ jobs, key ≠ (agentId, e.1.jobId)) → d'.jobs.get key = d.jobs.get key
  recorded : ∀ e ∈ jobs,
    d'.versions.get (agentId, e.1.jobId, e.1.revision) = some ⟨e.2, e.1⟩
  kept : ∀ key row, d.versions.get key = some row → d'.versions.get key = some row
  added : ∀ key row, d'.versions.get key = some row → d.versions.get key = some row ∨
    ∃ e ∈ jobs, key = (agentId, e.1.jobId, e.1.revision)

/-- One Job. -/
theorem Stored.cons {rest : List (JobDefinition × String)}
    {versions : Table VersionKey AgentJobVersion}
    (hfree : d.jobs.get (agentId, definition.jobId) = none) (hrecorded :
      versions.get (agentId, definition.jobId, definition.revision) = some ⟨kind, definition⟩)
    (hkept : ∀ key row, d.versions.get key = some row → versions.get key = some row)
    (hadded : ∀ key row, versions.get key = some row → d.versions.get key = some row ∨
      key = (agentId, definition.jobId, definition.revision)) (h : Stored agentId rest { d with
        versions := versions
        jobs := d.jobs.insert (agentId, definition.jobId) (AgentJob.of definition kind) } d') :
    Stored agentId ((definition, kind) :: rest) d d' := by
  have hother : ∀ e ∈ rest, e.1.jobId ≠ definition.jobId := by
    intro e he hid
    have hnone := h.free e he
    rw [get_insert, hid, if_pos rfl] at hnone
    cases hnone
  have hfirst : ∀ e ∈ rest, (agentId, definition.jobId) ≠ (agentId, e.1.jobId) := by
    intro e he hkey
    exact hother e he (congrArg Prod.snd hkey).symm
  refine ⟨h.catalogs, h.operations, ?_, ?_, ?_, ?_, ?_, ?_, ?_⟩
  · refine forall_mem_cons.mpr ⟨hfree, fun e he => ?_⟩
    have hnone := h.free e he
    rwa [get_insert, if_neg fun hkey => hfirst e he hkey.symm] at hnone
  · rw [map_cons, nodup_cons]
    refine ⟨fun hmem => ?_, h.distinct⟩
    obtain ⟨e, he, hid⟩ := mem_map.mp hmem
    exact hother e he hid
  · refine forall_mem_cons.mpr ⟨?_, h.rows⟩
    rw [h.otherRows _ hfirst, get_insert, if_pos rfl]
  · intro key hkey
    rw [h.otherRows key fun e he => hkey e (mem_cons_of_mem _ he), get_insert,
      if_neg (hkey (definition, kind) mem_cons_self)]
  · exact forall_mem_cons.mpr ⟨h.kept _ _ hrecorded, h.recorded⟩
  · exact fun key row hrow => h.kept key row (hkept key row hrow)
  · intro key row hrow
    rcases h.added key row hrow with hrow | ⟨e, he, hkey⟩
    · rcases hadded key row hrow with hrow | hkey
      · exact .inl hrow
      · exact .inr ⟨(definition, kind), mem_cons_self, hkey⟩
    · exact .inr ⟨e, mem_cons_of_mem _ he, hkey⟩

theorem storeJobs_ok : ∀ {jobs : List (JobDefinition × String)} {d d' : CatalogTables},
    (storeJobs agentId jobs).exec engine d = (.ok (), d') → Stored agentId jobs d d'
  | [], d, d', h => by
    cases h
    exact ⟨rfl, rfl, forall_mem_nil _, nodup_nil, forall_mem_nil _, fun _ _ => rfl,
      forall_mem_nil _, fun _ _ hrow => hrow, fun _ _ hrow => .inl hrow⟩
  | (definition, kind) :: rest, d, d', h => by
    obtain ⟨_, d₁, hrecord, h⟩ := bind_ok_iff.mp h
    obtain ⟨versions, rfl, hrecorded, hkept, hadded⟩ := recordVersion_ok hrecord
    obtain ⟨ok, d₂, hinsert, h⟩ := bind_ok_iff.mp h
    cases hinsert
    obtain ⟨hok, h⟩ := accepted_ok_iff.mp h
    have hnone : d.jobs.contains (agentId, definition.jobId) = false := by
      simpa [CatalogTables.engine, CatalogTables.answer] using hok
    refine .cons (contains_eq_false_iff.mp hnone) hrecorded hkept hadded (storeJobs_ok ?_)
    rw [← h]
    show _ = (storeJobs agentId rest).exec engine
      (engine.overlay _ (if d.jobs.contains (agentId, definition.jobId) then _ else _))
    rw [hnone]
    rfl

end Rows

/-! ## 3. The whole replacement -/

section Replacement

variable {d d' : CatalogTables} {agentId : String} {jobs : List JobDefinition}
  {validated : List (JobDefinition × String)} {expected : Option Nat}
  {record : AgentJobCatalogRecord}

theorem withKinds_ok : ∀ {jobs : List JobDefinition} {validated : List _},
    withKinds jobs = .ok validated →
      validated.map Prod.fst = jobs ∧ ∀ e ∈ validated, taskKind e.1 = .ok e.2
  | [], _, h => by
    cases h
    exact ⟨rfl, fun e he => absurd he not_mem_nil⟩
  | definition :: rest, _, h => by
    obtain ⟨kind, hkind, h⟩ := bind_eq_ok h
    obtain ⟨validated, hrest, h⟩ := bind_eq_ok h
    cases h
    obtain ⟨hmap, hall⟩ := withKinds_ok hrest
    exact ⟨by rw [map_cons, hmap], forall_mem_cons.mpr ⟨hkind, hall⟩⟩

theorem validateJobs_ok (h : validateJobs jobs = .ok validated) :
    (validated.map Prod.fst).Perm jobs ∧ ∀ e ∈ validated, taskKind e.1 = .ok e.2 := by
  obtain ⟨withKind, hkinds, h⟩ := bind_eq_ok h
  obtain ⟨hmap, hall⟩ := withKinds_ok hkinds
  simp only at h
  obtain ⟨-, h⟩ := ite_eq_ok h
  cases h
  have hperm : (sortJobs withKind).Perm withKind := perm_insertionSort _ _
  refine ⟨?_, fun e he => hall e (hperm.mem_iff.mp he)⟩
  rw [← hmap]
  exact hperm.map Prod.fst

/-- Exactly these Jobs are stored for the Agent. -/
structure Stores (d : CatalogTables) (agentId : String) (jobs : List JobDefinition) : Prop where
  distinct : (jobs.map JobDefinition.jobId).Nodup
  rows : ∀ definition ∈ jobs, ∃ kind, taskKind definition = .ok kind ∧
    d.jobs.get (agentId, definition.jobId) = some (AgentJob.of definition kind)
  only : ∀ jobId row, d.jobs.get (agentId, jobId) = some row →
    row.definition ∈ jobs ∧ row.definition.jobId = jobId

/-- The row of a stored Job. -/
theorem Stores.row (h : Stores d agentId jobs) {row : AgentJob}
    (hrow : d.jobs.get (agentId, jobId) = some row) :
    ∃ definition ∈ jobs, ∃ kind, definition.jobId = jobId ∧ taskKind definition = .ok kind ∧
      row = AgentJob.of definition kind := by
  obtain ⟨hmem, hid⟩ := h.only jobId row hrow
  obtain ⟨kind, hkind, hget⟩ := h.rows _ hmem
  rw [hid, hrow] at hget
  exact ⟨row.definition, hmem, kind, hid, hkind, Option.some.inj hget⟩

/-- Everything a successful replacement has done. -/
structure Replaced (agentId : String) (jobs : List JobDefinition)
    (record : AgentJobCatalogRecord) (d d' : CatalogTables) : Prop where
  agent : record.agentId = agentId
  revision : record.catalog.catalogRevision = (d.catalogs.get agentId).getD 0 + 1
  listed : record.catalog.jobs.Perm jobs
  catalogs : ∀ a, d'.catalogs.get a =
    if a = agentId then some record.catalog.catalogRevision else d.catalogs.get a
  stores : Stores d' agentId jobs
  otherJobs : ∀ key : JobKey, key.1 ≠ agentId → d'.jobs.get key = d.jobs.get key
  recorded : ∀ definition ∈ jobs, ∃ kind, taskKind definition = .ok kind ∧
    d'.versions.get (agentId, definition.jobId, definition.revision) = some ⟨kind, definition⟩
  kept : ∀ key row, d.versions.get key = some row → d'.versions.get key = some row
  added : ∀ key row, d'.versions.get key = some row → d.versions.get key = some row ∨
    ∃ definition ∈ jobs, key = (agentId, definition.jobId, definition.revision)
  newest : ∀ definition ∈ jobs, ∀ revision row,
    d.versions.get (agentId, definition.jobId, revision) = some row →
      revision ≤ definition.revision

/-- The rows after the old ones were deleted and the new ones stored. -/
theorem Stored.stores {d₁ : CatalogTables} (h : Stored agentId validated d₁ d')
    (hempty : ∀ jobId, d₁.jobs.get (agentId, jobId) = none)
    (hkinds : ∀ e ∈ validated, taskKind e.1 = .ok e.2) (hperm : (validated.map Prod.fst).Perm jobs) :
    Stores d' agentId jobs where
  distinct := by
    have hmap := (hperm.map JobDefinition.jobId).nodup_iff
    rw [map_map] at hmap
    exact hmap.mp h.distinct
  rows := by
    intro definition hdefinition
    obtain ⟨e, he, rfl⟩ := mem_map.mp (hperm.mem_iff.mpr hdefinition)
    exact ⟨e.2, hkinds e he, h.rows e he⟩
  only := by
    intro jobId row hrow
    by_cases hmem : ∃ e ∈ validated, e.1.jobId = jobId
    · obtain ⟨e, he, rfl⟩ := hmem
      rw [h.rows e he] at hrow
      cases hrow
      exact ⟨hperm.mem_iff.mp (mem_map_of_mem he), rfl⟩
    · -- no other row is left
      rw [h.otherRows (agentId, jobId) fun e he hkey =>
        hmem ⟨e, he, (congrArg Prod.snd hkey).symm⟩, hempty] at hrow
      cases hrow

/-- The parts put together: the claim, the deletion, the new rows, the publication. Of claim and
    publication exactly one writes the catalog's row. -/
theorem Replaced.of_parts {claimed stored : CatalogTables} {left : Table JobKey AgentJob}
    (hperm : (validated.map Prod.fst).Perm jobs) (hkinds : ∀ e ∈ validated, taskKind e.1 = .ok e.2)
    (hrevision : revision = (d.catalogs.get agentId).getD 0 + 1)
    (hclaimed : claimed = if expected.isNone then d
      else { d with catalogs := d.catalogs.insert agentId revision })
    (hnewest : ∀ e ∈ validated, ∀ revision row,
      claimed.versions.get (agentId, e.1.jobId, revision) = some row → revision ≤ e.1.revision)
    (hleft : ∀ key, left.get key = if key.1 = agentId then none else claimed.jobs.get key)
    (hstored : Stored agentId validated { claimed with jobs := left } stored)
    (hpublished : d' = if expected.isNone
      then { stored with catalogs := stored.catalogs.insert agentId revision } else stored) :
    Replaced agentId jobs ⟨agentId, ⟨revision, validated.map Prod.fst⟩⟩ d d' := by
  have ⟨hversions, hjobs⟩ : claimed.versions = d.versions ∧ claimed.jobs = d.jobs := by
    rw [hclaimed]
    split <;> exact ⟨rfl, rfl⟩
  have ⟨hversions', hjobs'⟩ : d'.versions = stored.versions ∧ d'.jobs = stored.jobs := by
    rw [hpublished]
    split <;> exact ⟨rfl, rfl⟩
  have hstores : Stores stored agentId jobs :=
    hstored.stores (fun jobId => by rw [hleft, if_pos rfl]) hkinds hperm
  refine ⟨rfl, hrevision, hperm, fun a => ?_, ?_, fun key hkey => ?_, ?_, ?_, ?_, ?_⟩
  · rw [hpublished]
    cases expected with
    | none =>
      show (stored.catalogs.insert agentId revision).get a = _
      rw [get_insert, hstored.catalogs, hclaimed]
      rfl
    | some =>
      show stored.catalogs.get a = _
      rw [hstored.catalogs, hclaimed]
      exact get_insert ..
  · exact ⟨hstores.distinct, by rw [hjobs']; exact hstores.rows,
      by rw [hjobs']; exact hstores.only⟩
  · rw [hjobs', hstored.otherRows key fun e _ hsame => hkey (congrArg Prod.fst hsame), hleft,
      if_neg hkey, hjobs]
  · intro definition hdefinition
    obtain ⟨e, he, rfl⟩ := mem_map.mp (hperm.mem_iff.mpr hdefinition)
    exact ⟨e.2, hkinds e he, by rw [hversions']; exact hstored.recorded e he⟩
  · intro key row hrow
    rw [hversions']
    exact hstored.kept key row (by rwa [← hversions] at hrow)
  · intro key row hrow
    rw [hversions'] at hrow
    rcases hstored.added key row hrow with hold | ⟨e, he, hkey⟩
    · exact .inl (by rwa [← hversions])
    · exact .inr ⟨e.1, hperm.mem_iff.mp (mem_map_of_mem he), hkey⟩
  · intro definition hdefinition revision row hrow
    obtain ⟨e, he, rfl⟩ := mem_map.mp (hperm.mem_iff.mpr hdefinition)
    exact hnewest e he revision row (by rwa [hversions])

theorem replaceInTransaction_ok
    (h : (replaceAgentJobCatalogInTransaction agentId jobs expected).exec engine d =
      (.ok record, d')) :
    Replaced agentId jobs record d d' ∧ record.catalog.catalogRevision ≤ maxI64 := by
  obtain ⟨_, -, h⟩ := ofExcept_bind_ok_iff.mp h
  obtain ⟨validated, hvalid, h⟩ := ofExcept_bind_ok_iff.mp h
  obtain ⟨hperm, hkinds⟩ := validateJobs_ok hvalid
  obtain ⟨_, -, h⟩ := ofExcept_bind_ok_iff.mp h
  obtain ⟨previous, d₄, hfind, h⟩ := bind_ok_iff.mp h
  cases hfind
  unfold replaceCatalogAt at h
  split at h
  · cases h
  · rename_i hnot
    have hexpected : RevisionRow.Expects (d.catalogs.get agentId) expected :=
      (Bool.not_eq_true _).mp hnot
    obtain ⟨_, created, hcreate, h⟩ := bind_ok_iff.mp h
    have hcreated := createIfFirst_ok hcreate
    obtain ⟨revision, hi64, h⟩ := ofExcept_bind_ok_iff.mp h
    obtain ⟨hrevision, hmax⟩ := toI64_ok hi64
    obtain ⟨_, claimed, hadvance, h⟩ := bind_ok_iff.mp h
    have hfirst : d.catalogs.get agentId = none → revision = 1 := by
      intro hnone
      rw [hrevision]
      exact congrArg (·.getD 0 + 1) hnone
    have hclaimed := claimed_of_create hexpected hfirst hcreated
      (advanceIfExpected_ok hadvance)
    obtain ⟨_, checked, hhistory, hrows⟩ := bind_ok_iff.mp h
    obtain ⟨hsame, hnewest⟩ := checkHistory_ok hhistory
    rw [hsame] at hrows
    obtain ⟨_, deleted, hdelete, hrows⟩ := bind_ok_iff.mp hrows
    cases hdelete
    obtain ⟨left, hoverlay, hleft⟩ := overlay_deleteJobs claimed agentId
    obtain ⟨_, stored, hstore, hrows⟩ := bind_ok_iff.mp hrows
    have hstored : Stored agentId validated { claimed with jobs := left } stored :=
      hoverlay ▸ storeJobs_ok hstore
    obtain ⟨_, published, hpublish, hend⟩ := bind_ok_iff.mp hrows
    cases hend
    exact ⟨.of_parts hperm hkinds hrevision hclaimed hnewest hleft hstored
      (publish_ok hpublish hexpected), hrevision ▸ hmax⟩

/-- The operations of the Web play no part in it. -/
theorem Replaced.withOperations {before after : Table String WebJobOperation}
    (h : Replaced agentId jobs record { d with operations := before } d') :
    Replaced agentId jobs record d { d' with operations := after } :=
  { h with stores := { h.stores with } }

theorem replaceIfRevision_ok
    (h : (replaceAgentJobCatalogIfRevision agentId jobs expected).exec engine d =
      (.ok record, d')) : Replaced agentId jobs record d d' := by
  obtain ⟨stored, d₁, hreplace, h⟩ := bind_ok_iff.mp h
  have hreplaced := (replaceInTransaction_ok hreplace).1
  obtain ⟨target, -, h⟩ := ofExcept_bind_ok_iff.mp h
  obtain ⟨_, d₃, hsupersede, hend⟩ := bind_ok_iff.mp h
  cases hsupersede
  cases hend
  obtain ⟨operations, hoperations⟩ := overlay_supersede d₁ agentId target
  have hsame : Replaced agentId jobs record { d with operations := d.operations } d₁ := hreplaced
  have hrest : Replaced agentId jobs record d { d₁ with operations := operations } :=
    hsame.withOperations
  exact hoperations ▸ hrest

/-- The key of an operation is known, with the hash of this request. -/
def IsReplay (d : CatalogTables) (draft : WebJobOperationDraft) : Prop :=
  ∃ existing,
    d.findOperation (draft.actorUserId, draft.method, draft.clientMutationId) = some existing ∧
      existing.requestHash = draft.requestHash

theorem replayOperation_ok {existing : WebJobOperation}
    (h : (replayOperation existing draft).exec engine d = (.ok result, d')) :
    existing.requestHash = draft.requestHash ∧ result = ⟨none, existing, true⟩ ∧ d' = d := by
  unfold replayOperation at h
  split at h
  · cases h
  · rename_i hhash
    cases h
    exact ⟨not_not.mp hhash, rfl, rfl⟩

theorem inserted_of_absent {row : WebJobOperation} (h : d.findOperation row.idempotencyKey = none) :
    d.insertOperationOutcome row ≠ .notInserted := by
  unfold CatalogTables.insertOperationOutcome
  rw [h, if_neg (by simp)]
  split <;> exact InsertOutcome.noConfusion

/-- A mutation from the Web replaces the catalog, or is a replay; a replay writes nothing. -/
theorem replaceForWeb_ok {env : WebEnv} {expected : Nat}
    (h : (replaceAgentJobCatalogForWeb env agentId jobs expected draft).exec engine d =
      (.ok result, d')) :
    (∃ record, result.catalog = some record ∧ Replaced agentId jobs record d d' ∧
        ¬ IsReplay d draft) ∨
      result.catalog = none ∧ d' = d ∧ IsReplay d draft := by
  obtain ⟨_, -, h⟩ := ofExcept_bind_ok_iff.mp h
  obtain ⟨_, -, h⟩ := ofExcept_bind_ok_iff.mp h
  obtain ⟨target, -, h⟩ := ofExcept_bind_ok_iff.mp h
  obtain ⟨existing, d₄, hfind, h⟩ := bind_ok_iff.mp h
  cases hfind
  split at h
  · rename_i existing hexisting
    obtain ⟨hhash, rfl, rfl⟩ := replayOperation_ok h
    exact .inr ⟨rfl, rfl, existing, hexisting, hhash⟩
  · rename_i hnone
    obtain ⟨outcome, d₅, hinsert, h⟩ := bind_ok_iff.mp h
    cases hinsert
    split at h
    · cases h
    · -- nobody else can have inserted the key
      rename_i houtcome
      exact absurd houtcome (inserted_of_absent hnone)
    · obtain ⟨record, d₆, hreplace, h⟩ := bind_ok_iff.mp h
      have hreplaced := (replaceInTransaction_ok hreplace).1
      obtain ⟨_, d₇, hsupersede, hend⟩ := bind_ok_iff.mp h
      cases hsupersede
      cases hend
      refine .inl ⟨record, rfl, ?_, fun ⟨_, hsome, _⟩ => nomatch hnone.symm.trans hsome⟩
      obtain ⟨before, hbefore⟩ := overlay_insertOperation d
        (draft.operation agentId expected (env.catalogDigest ⟨target, jobs⟩))
      obtain ⟨after, hafter⟩ := overlay_supersede d₆ agentId target
      have hfrom : Replaced agentId jobs record { d with operations := before } d₆ :=
        hbefore ▸ hreplaced
      have hto : Replaced agentId jobs record d { d₆ with operations := after } :=
        hfrom.withOperations
      exact hafter ▸ hto

end Replacement

/-! ## 4. Histories -/

inductive CatalogCall where
  | direct (agentId : String) (jobs : List JobDefinition) (expected : Option Nat)
  | web (agentId : String) (jobs : List JobDefinition) (expected : Nat)
      (draft : WebJobOperationDraft)

namespace CatalogCall

variable (env : WebEnv) (d : CatalogTables)

def agentId : CatalogCall → String
  | .direct agentId _ _ => agentId
  | .web agentId _ _ _ => agentId

def jobs : CatalogCall → List JobDefinition
  | .direct _ jobs _ => jobs
  | .web _ jobs _ _ => jobs

/-- The transaction; its value is the new catalog, none for a replay. -/
def program : CatalogCall → CatalogTransaction (Option AgentJobCatalogRecord)
  | .direct agentId jobs expected => do
    return some (← replaceAgentJobCatalogIfRevision agentId jobs expected)
  | .web agentId jobs expected draft => do
    return (← replaceAgentJobCatalogForWeb env agentId jobs expected draft).catalog

/-- The result and the tables after the call. -/
def serve (call : CatalogCall) :
    Except DatabaseError (Option AgentJobCatalogRecord) × CatalogTables :=
  (call.program env).atomically engine d

/-- The call repeats a Web operation. -/
def Replays : CatalogCall → Prop
  | .direct .. => False
  | .web _ _ _ draft => IsReplay d draft

/-- A new catalog, or the replay of an operation, which changes nothing, or an error, which changes
    nothing; a replay makes no new catalog. -/
def Sound (call : CatalogCall) : Prop :=
  match call.serve env d with
  | (.ok (some record), d') => Replaced call.agentId call.jobs record d d' ∧ ¬ call.Replays d
  | (.ok none, d') => d' = d ∧ call.Replays d
  | (.error _, d') => d' = d

/-- A call that succeeds. -/
theorem program_ok {call : CatalogCall} {value : Option AgentJobCatalogRecord} {d' : CatalogTables}
    (h : (call.program env).exec engine d = (.ok value, d')) :
    (∃ record, value = some record ∧ Replaced call.agentId call.jobs record d d' ∧
        ¬ call.Replays d) ∨
      value = none ∧ d' = d ∧ call.Replays d := by
  cases call with
  | direct =>
    obtain ⟨stored, d₁, hreplace, hend⟩ := bind_ok_iff.mp h
    cases hend
    exact .inl ⟨stored, rfl, replaceIfRevision_ok hreplace, id⟩
  | web =>
    obtain ⟨result, d₁, hweb, hend⟩ := bind_ok_iff.mp h
    cases hend
    exact replaceForWeb_ok hweb

theorem sound (call : CatalogCall) : call.Sound env d := by
  unfold Sound
  split
  · obtain ⟨_, ⟨⟩, hreplaced⟩ | ⟨⟨⟩, -⟩ := program_ok env d (atomically_ok_iff.mp ‹_›)
    exact hreplaced
  · obtain ⟨_, ⟨⟩, -⟩ | ⟨-, hreplay⟩ := program_ok env d (atomically_ok_iff.mp ‹_›)
    exact hreplay
  · rename_i e d' h
    exact atomically_error h

/-- The tables after the call. -/
def step (call : CatalogCall) : CatalogTables :=
  (call.serve env d).2

theorem step_cases (call : CatalogCall) :
    (∃ record, Replaced call.agentId call.jobs record d (call.step env d)) ∨ call.step env d = d := by
  have hsound := call.sound env d
  unfold Sound at hsound
  unfold step
  split at hsound <;> rename_i hserve <;> rw [hserve]
  · exact .inl ⟨_, hsound.1⟩
  · exact .inr hsound.1
  · exact .inr hsound

end CatalogCall

namespace CatalogTables

/-- A stored Job is recorded as a version, and it is the newest version of its id. -/
structure Inv (d : CatalogTables) : Prop where
  recorded : ∀ agentId jobId row, d.jobs.get (agentId, jobId) = some row →
    d.versions.get (agentId, jobId, row.revision) = some ⟨row.taskKind, row.definition⟩
  newest : ∀ agentId jobId row, d.jobs.get (agentId, jobId) = some row →
    ∀ revision version, d.versions.get (agentId, jobId, revision) = some version →
      revision ≤ row.revision

/-- What was recorded stays recorded. -/
def Remembers (d d' : CatalogTables) : Prop :=
  ∀ key row, d.versions.get key = some row → d'.versions.get key = some row

theorem Inv.empty : Inv .empty :=
  ⟨fun _ _ _ h => (nomatch h), fun _ _ _ h => (nomatch h)⟩

/-- **One replacement** keeps the tables in order. -/
theorem Inv.replaced {d d' : CatalogTables} {agentId : String} {jobs : List JobDefinition}
    {record : AgentJobCatalogRecord} (hi : Inv d) (h : Replaced agentId jobs record d d') :
    Inv d' := by
  refine ⟨fun a jobId row hrow => ?_, fun a jobId row hrow revision version hversion => ?_⟩
  · by_cases ha : a = agentId
    · subst ha
      obtain ⟨definition, hmem, kind, rfl, hkind, rfl⟩ := h.stores.row hrow
      obtain ⟨kind', hkind', hrecorded⟩ := h.recorded definition hmem
      cases hkind.symm.trans hkind'
      exact hrecorded
    · rw [h.otherJobs _ ha] at hrow
      exact h.kept _ _ (hi.recorded a jobId row hrow)
  · by_cases ha : a = agentId
    · subst ha
      obtain ⟨definition, hmem, kind, rfl, hkind, rfl⟩ := h.stores.row hrow
      rcases h.added _ _ hversion with hold | ⟨other, hother, hkey⟩
      · exact h.newest definition hmem revision version hold
      · -- a version that is new is the one just stored: the ids are distinct
        simp only [Prod.mk.injEq, true_and] at hkey
        have hsame : definition = other :=
          inj_on_of_nodup_map h.stores.distinct hmem hother hkey.1
        rw [hkey.2, ← hsame]
        exact le_rfl
    · rw [h.otherJobs _ ha] at hrow
      rcases h.added _ _ hversion with hold | ⟨other, _, hkey⟩
      · exact hi.newest a jobId row hrow revision version hold
      · exact absurd (congrArg Prod.fst hkey) ha

/-- One call: what was recorded stays, and the tables stay in order. -/
theorem Inv.step {d : CatalogTables} (hi : Inv d) (env : WebEnv) (call : CatalogCall) :
    Inv (call.step env d) ∧ Remembers d (call.step env d) := by
  rcases call.step_cases env d with ⟨record, hreplaced⟩ | hsame
  · exact ⟨hi.replaced hreplaced, hreplaced.kept⟩
  · rw [hsame]
    exact ⟨hi, fun _ _ hrow => hrow⟩

theorem Inv.run (env : WebEnv) : ∀ {d : CatalogTables} (calls : List CatalogCall), Inv d →
    Inv (run (CatalogCall.step env) d calls) ∧ Remembers d (run (CatalogCall.step env) d calls)
  | _, [], hi => ⟨hi, fun _ _ hrow => hrow⟩
  | d, call :: calls, hi => by
    obtain ⟨hstep, hremembers⟩ := hi.step env call
    obtain ⟨hrun, hlater⟩ := Inv.run env calls hstep
    exact ⟨hrun, fun key row hrow => hlater key row (hremembers key row hrow)⟩

/-- Between an earlier and a later state: what was recorded for Agent, Job and revision is still
    recorded, what is stored is what is recorded, and no Job has gone below a revision it had. -/
structure Follows (earlier later : CatalogTables) : Prop where
  unchanged : Remembers earlier later
  recorded : ∀ agentId jobId row, later.jobs.get (agentId, jobId) = some row →
    later.versions.get (agentId, jobId, row.revision) = some ⟨row.taskKind, row.definition⟩
  forward : ∀ agentId jobId old new, earlier.jobs.get (agentId, jobId) = some old →
    later.jobs.get (agentId, jobId) = some new → old.revision ≤ new.revision

theorem Inv.follows {earlier later : CatalogTables} (hearlier : Inv earlier) (hlater : Inv later)
    (h : Remembers earlier later) : Follows earlier later where
  unchanged := h
  recorded := hlater.recorded
  forward := by
    intro agentId jobId old new hold hnew
    have hrecorded := h _ _ (hearlier.recorded agentId jobId old hold)
    exact hlater.newest agentId jobId new hnew old.revision _ hrecorded

end CatalogTables

/-- **The catalog store**: for every sequence of replacements, direct or from the Web, each call
    does what it should, and between any two moments the history is kept. -/
theorem catalog_store_sound (env : WebEnv) (calls : List CatalogCall) :
    Along (CatalogCall.step env) (fun d call => call.Sound env d) .empty calls ∧
      ∀ earlier later, earlier <+: later → later <+: calls →
        CatalogTables.Follows (run (CatalogCall.step env) .empty earlier)
          (run (CatalogCall.step env) .empty later) := by
  refine ⟨along_mono (fun d call _ => call.sound env d) (along_trivial calls _), ?_⟩
  rintro earlier later ⟨rest, rfl⟩ _
  have hearlier := (CatalogTables.Inv.run env earlier .empty).1
  obtain ⟨hlater, hremembers⟩ := CatalogTables.Inv.run env rest hearlier
  rw [run_append]
  exact hearlier.follows hlater hremembers

/-! ## 5. A mutation that is sent twice -/

section Replay

/-- Every text is accepted, and the digest says the revision. -/
def WebEnv.lenient : WebEnv :=
  ⟨fun _ => true, fun _ => true, fun catalog => [catalog.catalogRevision.toUInt8]⟩

/-- The CPU load, as a Job of the given id and revision. -/
def cpuJob (id : Nat) (revision : Nat) : JobDefinition :=
  ⟨Scheduler.Uuid.asBytes id, revision, true, none, none, some ⟨some (.builtin .cpu [])⟩⟩

def firstMutation : CatalogCall :=
  .web "agent-1" [cpuJob 1 1] 0
    ⟨"5f0c1c1e-6a1b-4b7e-9d53-0c8c2f1f7a01", "operator-1", "PUT", "m-1",
      "0123456789abcdef0123456789abcdef0123456789abcdef0123456789abcdef", "agent-1", "replace",
      none, "null"⟩

/-- Sent again, the mutation succeeds again, and the catalog keeps its revision. -/
theorem replay_keeps_revision :
    let d := firstMutation.step .lenient .empty
    (firstMutation.serve .lenient d).1 = .ok none ∧ d.catalogs.get "agent-1" = some 1 ∧
      (firstMutation.step .lenient d).catalogs.get "agent-1" = some 1 := by
  decide +kernel

end Replay

end Smalux.Server
