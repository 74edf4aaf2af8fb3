/-
  Subject:   The runtime configuration of an Agent's plugins in the database
             (database/plugin_runtime.rs).

  The same scheme as for the catalogs of Jobs, without a history of versions: the row with the
  revision, and the rows of the configuration, which are deleted and stored anew. The key of a row is
  the text `agent:plugin:version`; two plugins can share it, and then the second row is refused.

  * `replaceAgentPluginRuntimeIfRevision` -- the replacement;
  * `RuntimesReplaced` -- everything a successful one has done.
-/
import Smalux.Server.CatalogStore

namespace Smalux.Server

open Lib Lib.Transaction Table List RevisionRow

variable {validated : List StoredPluginRuntime} {expected : Option Nat} {revision : Nat}

/-! ## 1. Rows and statements -/

structure StoredPluginRuntime where
  pluginId : String
  pluginVersion : String
  schemaHash : List UInt8
  schemaVersion : Nat
  config : List UInt8
  requestedConcurrency : Nat
  deriving DecidableEq

/-- A row of `agent_plugin_runtimes`. -/
structure AgentPluginRuntime where
  agentId : String
  runtime : StoredPluginRuntime
  deriving DecidableEq

def AgentPluginRuntime.runtimeKey (row : AgentPluginRuntime) : String :=
  row.agentId ++ ":" ++ row.runtime.pluginId ++ ":" ++ row.runtime.pluginVersion

def keyOf (agentId : String) (runtime : StoredPluginRuntime) : String :=
  AgentPluginRuntime.runtimeKey ⟨agentId, runtime⟩

structure RuntimeTables where
  /-- `agent_plugin_runtime_catalogs`: the revision -/
  catalogs : Table String Nat
  /-- by `runtime_key` -/
  runtimes : Table String AgentPluginRuntime

def RuntimeTables.empty : RuntimeTables := ⟨.empty, .empty⟩

inductive RuntimeStatement where
  /-- on the Agent's row of `agent_plugin_runtime_catalogs` -/
  | catalog (agentId : String) (row : RowStatement)
  | deleteRuntimes (agentId : String)
  | insertRuntime (row : AgentPluginRuntime)
  deriving DecidableEq

def RuntimeStatement.Answer : RuntimeStatement → Type
  | .catalog _ row => row.Answer
  | .deleteRuntimes _ => Unit
  | .insertRuntime _ => Bool

inductive RuntimeWrite where
  | catalog (agentId : String) (revision : Nat)
  | runtime (row : AgentPluginRuntime)
  | removeRuntime (runtimeKey : String)
  deriving DecidableEq

inductive RuntimeRow where
  | catalog (agentId : String)
  | runtime (runtimeKey : String)
  deriving DecidableEq

def RuntimeWrite.key : RuntimeWrite → RuntimeRow
  | .catalog agentId _ => .catalog agentId
  | .runtime row => .runtime row.runtimeKey
  | .removeRuntime runtimeKey => .runtime runtimeKey

namespace RuntimeTables

variable (d : RuntimeTables)

def write : RuntimeWrite → RuntimeTables
  | .catalog agentId revision => { d with catalogs := d.catalogs.insert agentId revision }
  | .runtime row => { d with runtimes := d.runtimes.insert row.runtimeKey row }
  | .removeRuntime runtimeKey => { d with runtimes := d.runtimes.remove runtimeKey }

def answer : (q : RuntimeStatement) → q.Answer
  | .catalog agentId row => row.answer (d.catalogs.get agentId)
  | .deleteRuntimes _ => ()
  | .insertRuntime row => !d.runtimes.contains row.runtimeKey

def writes : RuntimeStatement → List RuntimeWrite
  | .catalog agentId row =>
    ((row.written (d.catalogs.get agentId)).map (.catalog agentId)).toList
  | .deleteRuntimes agentId =>
    (d.runtimes.entries.filter fun e => e.2.agentId = agentId).map fun e => .removeRuntime e.1
  | .insertRuntime row => if d.runtimes.contains row.runtimeKey then [] else [.runtime row]

def engine :
    Engine RuntimeStatement RuntimeStatement.Answer RuntimeTables RuntimeWrite RuntimeRow where
  answer := answer
  writes := writes
  write := write
  key := RuntimeWrite.key

end RuntimeTables

abbrev RuntimeTransaction := Lib.Transaction DatabaseError RuntimeStatement RuntimeStatement.Answer

namespace RuntimeSql

def deleteRuntimes (agentId : String) : RuntimeTransaction Unit :=
  statement (RuntimeStatement.deleteRuntimes agentId)

def insertRuntime (row : AgentPluginRuntime) : RuntimeTransaction Bool :=
  statement (RuntimeStatement.insertRuntime row)

end RuntimeSql

def runtimeConflict (expected actual : Nat) : DatabaseError :=
  .revisionConflict "Agent plugin runtime" expected actual

/-- No unconditional update of a catalog's row finds another revision than the one read. -/
def RuntimeTables.fair (d : RuntimeTables) : RuntimeStatement → Prop
  | .catalog agentId row => row.Fair (d.catalogs.get agentId)
  | _ => True

instance RuntimeTables.fair.decidable (d : RuntimeTables) :
    (q : RuntimeStatement) → Decidable (d.fair q)
  | .catalog agentId row => inferInstanceAs (Decidable (row.Fair (d.catalogs.get agentId)))
  | .deleteRuntimes _ | .insertRuntime _ => .isTrue trivial

/-- The row with the revision of an Agent's runtime configuration. -/
def runtimeRow (agentId : String) : RevisionRow DatabaseError RuntimeTables.engine where
  key := .catalog agentId
  get := fun d => d.catalogs.get agentId
  set := fun d revision => { d with catalogs := d.catalogs.insert agentId revision }
  ask := fun row => statement (RuntimeStatement.catalog agentId row)
  fair := RuntimeTables.fair
  conflict := runtimeConflict
  refused := .constraint
  exec_ask := by
    intro row d
    show (_, RuntimeTables.engine.overlay d (Option.toList (Option.map _ _))) = _
    cases row.written (d.catalogs.get agentId) <;> rfl
  claims_ask := by
    intro β row f v hwritten hrest d
    show RuntimeRow.catalog agentId ∈ RuntimeTables.engine.keys (Option.toList (Option.map _ _)) ∧
        _ ∨
      RuntimeRow.catalog agentId ∉ RuntimeTables.engine.keys (Option.toList (Option.map _ _)) ∧ _
    cases hrow : row.written (d.catalogs.get agentId) with
    | none => exact .inr ⟨not_mem_nil, hrest d hrow⟩
    | some revision => exact .inl ⟨mem_singleton_self _, hwritten d revision hrow⟩

/-! ## 2. The replacement -/

/-- The revision of the empty snapshot that is sent when nothing is stored. -/
def emptyRuntimeRevision : Nat := 1

def invalidPluginRuntime {α : Type} (text : String) : Except DatabaseError α :=
  .error (.invalidPluginRuntime text)

def StoredPluginRuntime.isValid (runtime : StoredPluginRuntime) : Bool :=
  isShort runtime.pluginId 256 && isShort runtime.pluginVersion 64 &&
    runtime.schemaHash.length = 32 && runtime.schemaVersion ≠ 0 && runtime.requestedConcurrency ≠ 0

/-- `(plugin_id, plugin_version)`. -/
def StoredPluginRuntime.identity (runtime : StoredPluginRuntime) : String × String :=
  (runtime.pluginId, runtime.pluginVersion)

/-- The order of pairs of texts. -/
def identityLe (a b : String × String) : Bool := a.1 < b.1 || a.1 = b.1 && !(b.2 < a.2)

def sortRuntimes (runtimes : List StoredPluginRuntime) : List StoredPluginRuntime :=
  runtimes.insertionSort fun a b => identityLe a.identity b.identity

/-- The checks before the transaction. -/
def validateRuntimes (agentId : String) (runtimes : List StoredPluginRuntime) :
    Except DatabaseError (List StoredPluginRuntime) :=
  if ¬ isShort agentId 64 then invalidPluginRuntime "Agent id is required"
  else if anyPair (fun a b => a.identity = b.identity) (sortRuntimes runtimes) then
    invalidPluginRuntime "duplicate plugin runtime identity"
  else if ¬ (sortRuntimes runtimes).all StoredPluginRuntime.isValid then
    invalidPluginRuntime "plugin runtime identity or limits are invalid"
  else .ok (sortRuntimes runtimes)

def runtimeI64 (value : Nat) (text : String) : Except DatabaseError Nat :=
  if maxI64 < value then invalidPluginRuntime text else .ok value

def storeRuntimes (agentId : String) : List StoredPluginRuntime → RuntimeTransaction Unit
  | [] => pure ()
  | runtime :: rest => do
    let ok ← RuntimeSql.insertRuntime ⟨agentId, runtime⟩
    if ok then storeRuntimes agentId rest else .failed .constraint

/-- The replacement from the point on where the revision has been read. -/
def replaceRuntimeAt (agentId : String) (runtimes : List StoredPluginRuntime)
    (expected previous : Option Nat) : RuntimeTransaction Nat :=
  if expected.any (· ≠ previous.getD 0) then
    .failed (runtimeConflict (expected.getD 0) (previous.getD 0))
  else do
    let revision ← ofExcept
      (runtimeI64 (previous.getD emptyRuntimeRevision + 1) "runtime revision overflow")
    (runtimeRow agentId).advanceIfExpected previous expected revision
    (runtimeRow agentId).createIfFirst previous expected revision
    RuntimeSql.deleteRuntimes agentId
    storeRuntimes agentId runtimes
    (runtimeRow agentId).publish previous expected revision
    return revision

def replaceAgentPluginRuntimeIfRevision (agentId : String) (runtimes : List StoredPluginRuntime)
    (expected : Option Nat) : RuntimeTransaction Nat := do
  let runtimes ← ofExcept (validateRuntimes agentId runtimes)
  let _ ← ofExcept (runtimeI64 (expected.getD 0) "expected runtime revision exceeds i64")
  let previous ← (runtimeRow agentId).find
  replaceRuntimeAt agentId runtimes expected previous

/-! ## 3. What a replacement has done -/

section Replacement

open RuntimeTables

variable {d d' : RuntimeTables} {agentId : String} {runtimes : List StoredPluginRuntime}

theorem runtimeI64_ok_iff {n value : Nat} {text : String} :
    runtimeI64 n text = .ok value ↔ value = n ∧ n ≤ maxI64 := by
  constructor
  · intro h
    obtain ⟨hfits, h⟩ := ite_eq_ok h
    cases h
    exact ⟨rfl, Nat.le_of_not_lt hfits⟩
  · rintro ⟨rfl, hfits⟩
    exact if_neg (Nat.not_lt.mpr hfits)

theorem validateRuntimes_ok (h : validateRuntimes agentId runtimes = .ok validated) :
    validated.Perm runtimes := by
  unfold validateRuntimes invalidPluginRuntime at h
  iterate 3 obtain ⟨-, h⟩ := ite_eq_ok h
  cases h
  exact perm_insertionSort _ _

theorem overlay_removeRuntimes (keys : List String) : ∀ d : RuntimeTables,
    engine.overlay d (keys.map .removeRuntime) =
      { d with runtimes := keys.foldl remove d.runtimes } := by
  induction keys with
  | nil => exact fun _ => rfl
  | cons k keys ih => exact fun d => ih (engine.write d (.removeRuntime k))

/-- `DELETE`: the rows of other Agents are left. -/
theorem overlay_deleteRuntimes (d : RuntimeTables) (agentId : String) :
    ∃ left : Table String AgentPluginRuntime,
      engine.overlay d (engine.writes d (.deleteRuntimes agentId)) = { d with runtimes := left } ∧
        ∀ key row, left.get key = some row ↔ d.runtimes.get key = some row ∧ row.agentId ≠ agentId := by
  have hoverlay := overlay_removeRuntimes
    ((d.runtimes.entries.filter fun e => e.2.agentId = agentId).map Prod.fst) d
  rw [map_map] at hoverlay
  refine ⟨_, hoverlay, fun key row => ?_⟩
  have hmem : key ∈ (d.runtimes.entries.filter fun e => e.2.agentId = agentId).map Prod.fst ↔
      ∃ old, d.runtimes.get key = some old ∧ old.agentId = agentId := by
    simp [mem_map, mem_filter, Prod.exists, exists_eq_right, exists_and_right, get_eq_some_iff]
  rw [get_foldl_remove]
  by_cases hold : ∃ old, d.runtimes.get key = some old ∧ old.agentId = agentId
  · rw [if_pos (hmem.mpr hold)]
    obtain ⟨old, hget, hagent⟩ := hold
    refine ⟨nofun, fun ⟨hrow, hother⟩ => ?_⟩
    cases hget.symm.trans hrow
    exact absurd hagent hother
  · rw [if_neg fun h => hold (hmem.mp h)]
    exact ⟨fun hrow => ⟨hrow, fun hagent => hold ⟨row, hrow, hagent⟩⟩, fun h => h.1⟩

theorem exec_storeRuntimes_cons (runtime : StoredPluginRuntime) (rest : List StoredPluginRuntime)
    (d : RuntimeTables) : (storeRuntimes agentId (runtime :: rest)).exec engine d =
      if d.runtimes.contains (keyOf agentId runtime) then (.error .constraint, d)
      else (storeRuntimes agentId rest).exec engine
        (engine.write d (.runtime ⟨agentId, runtime⟩)) := by
  show exec engine (if (!d.runtimes.contains (keyOf agentId runtime)) = true then _ else _)
    (engine.overlay d (if d.runtimes.contains (keyOf agentId runtime) then _ else _)) = _
  cases d.runtimes.contains (keyOf agentId runtime) <;> rfl

/-- The rows afterwards: the old ones and the new ones. -/
theorem storeRuntimes_ok : ∀ {runtimes : List StoredPluginRuntime} {d d' : RuntimeTables},
    (storeRuntimes agentId runtimes).exec engine d = (.ok (), d') →
      d'.catalogs = d.catalogs ∧ ∀ key row, d'.runtimes.get key = some row ↔
        d.runtimes.get key = some row ∨
          ∃ runtime ∈ runtimes, row = ⟨agentId, runtime⟩ ∧ key = row.runtimeKey
  | [], d, d', h => by
    cases h
    exact ⟨rfl, fun key row => by simp⟩
  | runtime :: rest, d, d', h => by
    rw [exec_storeRuntimes_cons] at h
    split at h
    · cases h
    · rename_i hnot
      have hfree := contains_eq_false_iff.mp (Bool.eq_false_iff.mpr hnot)
      obtain ⟨hcatalogs, hrows⟩ := storeRuntimes_ok h
      refine ⟨hcatalogs, fun key row => (hrows key row).trans ?_⟩
      show (d.runtimes.insert _ _).get key = some row ∨ _ ↔ _
      rw [get_insert]
      constructor
      · rintro (hget | ⟨other, hother, hrow⟩)
        · split at hget
          · rename_i hkey
            cases hget
            exact .inr ⟨runtime, mem_cons_self, rfl, hkey⟩
          · exact .inl hget
        · exact .inr ⟨other, mem_cons_of_mem _ hother, hrow⟩
      · rintro (hget | ⟨other, hother, rfl, hkey⟩)
        · refine .inl ?_
          rw [if_neg]
          · exact hget
          · rintro rfl
            cases hfree.symm.trans hget
        · rcases mem_cons.mp hother with rfl | hother
          · exact .inl (if_pos hkey)
          · exact .inr ⟨other, hother, rfl, hkey⟩

/-- Everything a successful replacement has done. -/
structure RuntimesReplaced (agentId : String) (runtimes : List StoredPluginRuntime)
    (revision : Nat) (d d' : RuntimeTables) : Prop where
  next : revision = (d.catalogs.get agentId).getD emptyRuntimeRevision + 1
  catalogs : ∀ a, d'.catalogs.get a = if a = agentId then some revision else d.catalogs.get a
  /-- the Agent's rows are exactly the given ones -/
  rows : ∀ runtime, (∃ key, d'.runtimes.get key = some ⟨agentId, runtime⟩) ↔ runtime ∈ runtimes
  others : ∀ key row, row.agentId ≠ agentId →
    (d'.runtimes.get key = some row ↔ d.runtimes.get key = some row)

/-- The parts put together. -/
theorem RuntimesReplaced.of_parts {claimed stored : RuntimeTables}
    {left : Table String AgentPluginRuntime} (hperm : validated.Perm runtimes)
    (hnext : revision = (d.catalogs.get agentId).getD emptyRuntimeRevision + 1)
    (hclaimed : claimed = if expected.isNone then d
      else { d with catalogs := d.catalogs.insert agentId revision })
    (hleft : ∀ key row, left.get key = some row ↔
      claimed.runtimes.get key = some row ∧ row.agentId ≠ agentId)
    (hcatalogs : stored.catalogs = claimed.catalogs)
    (hrows : ∀ key row, stored.runtimes.get key = some row ↔ left.get key = some row ∨
      ∃ runtime ∈ validated, row = ⟨agentId, runtime⟩ ∧ key = row.runtimeKey)
    (hpublished : d' = if expected.isNone
      then { stored with catalogs := stored.catalogs.insert agentId revision } else stored) :
    RuntimesReplaced agentId runtimes revision d d' := by
  have hruntimes : claimed.runtimes = d.runtimes := by
    rw [hclaimed]
    split <;> rfl
  have hruntimes' : d'.runtimes = stored.runtimes := by
    rw [hpublished]
    split <;> rfl
  refine ⟨hnext, fun a => ?_, fun runtime => ?_, fun key row hother => ?_⟩
  · rw [hpublished]
    cases expected with
    | none =>
      show (stored.catalogs.insert agentId revision).get a = _
      rw [get_insert, hcatalogs, hclaimed]
      rfl
    | some =>
      show stored.catalogs.get a = _
      rw [hcatalogs, hclaimed]
      exact get_insert ..
  · rw [hruntimes']
    constructor
    · rintro ⟨key, hrow⟩
      rcases (hrows key _).mp hrow with hold | ⟨other, hmem, hrow, _⟩
      · exact absurd rfl ((hleft key _).mp hold).2
      · cases hrow
        exact hperm.mem_iff.mp hmem
    · intro hmem
      exact ⟨_, (hrows _ _).mpr (.inr ⟨runtime, hperm.mem_iff.mpr hmem, rfl, rfl⟩)⟩
  · rw [hruntimes', hrows, hleft, hruntimes]
    constructor
    · rintro (⟨hrow, _⟩ | ⟨runtime, _, rfl, _⟩)
      · exact hrow
      · exact absurd rfl hother
    · exact fun hrow => .inl ⟨hrow, hother⟩

theorem replacePluginRuntime_ok
    (h : (replaceAgentPluginRuntimeIfRevision agentId runtimes expected).exec engine d =
      (.ok revision, d')) : RuntimesReplaced agentId runtimes revision d d' ∧ revision ≤ maxI64 := by
  obtain ⟨validated, hvalid, h⟩ := ofExcept_bind_ok_iff.mp h
  have hperm := validateRuntimes_ok hvalid
  obtain ⟨_, -, h⟩ := ofExcept_bind_ok_iff.mp h
  obtain ⟨previous, d₃, hfind, h⟩ := bind_ok_iff.mp h
  cases hfind
  unfold replaceRuntimeAt at h
  split at h
  · cases h
  · rename_i hnot
    have hexpected : RevisionRow.Expects (d.catalogs.get agentId) expected :=
      (Bool.not_eq_true _).mp hnot
    obtain ⟨number, hi64, h⟩ := ofExcept_bind_ok_iff.mp h
    obtain ⟨hnext, hfits⟩ := runtimeI64_ok_iff.mp hi64
    obtain ⟨_, advanced, hadvance, h⟩ := bind_ok_iff.mp h
    obtain ⟨_, claimed, hcreate, h⟩ := bind_ok_iff.mp h
    have hclaimed := claimed_of_advance hexpected
      (advanceIfExpected_ok hadvance) (createIfFirst_ok hcreate)
    obtain ⟨_, deleted, hdelete, h⟩ := bind_ok_iff.mp h
    cases hdelete
    obtain ⟨left, hoverlay, hleft⟩ := overlay_deleteRuntimes claimed agentId
    obtain ⟨_, stored, hstore, h⟩ := bind_ok_iff.mp h
    rw [show engine.overlay claimed (engine.writes claimed _) = _ from hoverlay] at hstore
    obtain ⟨hcatalogs, hrows⟩ := storeRuntimes_ok hstore
    obtain ⟨_, published, hpublish, hend⟩ := bind_ok_iff.mp h
    cases hend
    have hpublished := publish_ok hpublish hexpected
    exact ⟨.of_parts hperm hnext hclaimed hleft hcatalogs hrows hpublished, hnext ▸ hfits⟩

end Replacement

end Smalux.Server
