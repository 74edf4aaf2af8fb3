/-
  Subject:   The catalogs of remote Jobs in the database (database/agent_job.rs,
             database/web_job_operations.rs).

  A replacement of a catalog is one transaction, here a program of single statements in the source's
  order. The payload columns hold the encoding of a definition; what decodes it gives the definition
  back, so the definition itself is kept. The text keys `agent:job` and `agent:job:revision` are
  pairs and triples (the UUID and the digits after it contain no colon). Times are left out: nothing
  depends on them. The foreign key to the Agent is a statement that the database refuses.

  * `replaceAgentJobCatalogInTransaction` -- the replacement itself;
  * `replaceAgentJobCatalogIfRevision`, `replaceAgentJobCatalogForWeb` -- the two ways to it.
-/
import Mathlib.Data.List.Sort
import Smalux.Lib.Pairs
import Smalux.Lib.Table
import Smalux.Lib.RevisionRow
import Smalux.Remote.Compiler
import Smalux.Server.Registry

namespace Smalux.Server

open Lib Lib.Transaction Proto

/-! ## 1. Rows -/

/-- `i64::MAX`. -/
def maxI64 : Nat := 2 ^ 63 - 1

/-- A row of `agent_jobs`. -/
structure AgentJob where
  revision : Nat
  enabled : Bool
  taskKind : String
  definition : JobDefinition
  deriving DecidableEq

/-- A row of `agent_job_versions`. -/
structure AgentJobVersion where
  taskKind : String
  definition : JobDefinition
  deriving DecidableEq

/-- Agent and Job. -/
abbrev JobKey := String × List UInt8

/-- Agent, Job and the Job's revision. -/
abbrev VersionKey := String × List UInt8 × Nat

inductive WebOperationState where
  | pending
  | waitingAgent
  | sent
  | applied
  | blocked
  | rejected
  | superseded
  | unknown
  deriving DecidableEq, Repr

/-- A row of `web_job_operations`. -/
structure WebJobOperation where
  operationId : String
  actorUserId : String
  method : String
  clientMutationId : String
  requestHash : String
  agentId : String
  action : String
  expectedCatalogRevision : Nat
  targetCatalogRevision : Nat
  desiredDigest : List UInt8
  targetJobId : Option String
  state : WebOperationState
  commandId : Option String
  reason : Option String
  responseJson : String
  deriving DecidableEq

/-- Actor, method and the client's id of the mutation: the unique index. -/
abbrev IdempotencyKey := String × String × String

def WebJobOperation.idempotencyKey (row : WebJobOperation) : IdempotencyKey :=
  (row.actorUserId, row.method, row.clientMutationId)

structure CatalogTables where
  /-- `agent_job_catalogs`: the revision -/
  catalogs : Table String Nat
  jobs : Table JobKey AgentJob
  versions : Table VersionKey AgentJobVersion
  /-- `web_job_operations` by `operation_id` -/
  operations : Table String WebJobOperation

def CatalogTables.empty : CatalogTables := ⟨.empty, .empty, .empty, .empty⟩

/-! ## 2. Statements -/

inductive Statement where
  /-- on the Agent's row of `agent_job_catalogs` -/
  | catalog (agentId : String) (row : RowStatement)
  /-- `ORDER BY revision DESC LIMIT 1` -/
  | findLatestVersion (agentId : String) (jobId : List UInt8)
  | findVersion (key : VersionKey)
  | insertVersion (key : VersionKey) (row : AgentJobVersion)
  | deleteJobs (agentId : String)
  | insertJob (key : JobKey) (row : AgentJob)
  | findOperation (key : IdempotencyKey)
  /-- `INSERT .. ON CONFLICT (idempotency columns) DO NOTHING` -/
  | insertOperation (row : WebJobOperation)
  | supersedeOperations (agentId : String) (targetRevision : Nat)
  deriving DecidableEq

inductive InsertOutcome where
  | inserted
  /-- `DbErr::RecordNotInserted` -/
  | notInserted
  | constraint
  deriving DecidableEq, Repr

/-- The answer to a statement; a `Bool` says whether the database accepts the row. -/
def Statement.Answer : Statement → Type
  | .catalog _ row => row.Answer
  | .findLatestVersion .. => Option Nat
  | .findVersion _ => Option AgentJobVersion
  | .insertVersion .. => Bool
  | .deleteJobs _ => Unit
  | .insertJob .. => Bool
  | .findOperation _ => Option WebJobOperation
  | .insertOperation _ => InsertOutcome
  | .supersedeOperations .. => Unit

/-- One row is written. -/
inductive RowWrite where
  | catalog (agentId : String) (revision : Nat)
  | job (key : JobKey) (row : AgentJob)
  | removeJob (key : JobKey)
  | version (key : VersionKey) (row : AgentJobVersion)
  | operation (operationId : String) (row : WebJobOperation)
  deriving DecidableEq

inductive RowKey where
  | catalog (agentId : String)
  | job (key : JobKey)
  | version (key : VersionKey)
  | operation (operationId : String)
  deriving DecidableEq

def RowWrite.key : RowWrite → RowKey
  | .catalog agentId _ => .catalog agentId
  | .job key _ => .job key
  | .removeJob key => .job key
  | .version key _ => .version key
  | .operation operationId _ => .operation operationId

namespace CatalogTables

variable (d : CatalogTables)

def write : RowWrite → CatalogTables
  | .catalog agentId revision => { d with catalogs := d.catalogs.insert agentId revision }
  | .job key row => { d with jobs := d.jobs.insert key row }
  | .removeJob key => { d with jobs := d.jobs.remove key }
  | .version key row => { d with versions := d.versions.insert key row }
  | .operation operationId row => { d with operations := d.operations.insert operationId row }

/-- The revisions recorded for a Job. -/
def recordedRevisions (agentId : String) (jobId : List UInt8) : List Nat :=
  (d.versions.keys.filter fun key => key.1 = agentId ∧ key.2.1 = jobId).map fun key => key.2.2

/-- The operation with these idempotency columns. -/
def findOperation (key : IdempotencyKey) : Option WebJobOperation :=
  d.operations.values.find? fun row => row.idempotencyKey = key

def insertOperationOutcome (row : WebJobOperation) : InsertOutcome :=
  if (d.findOperation row.idempotencyKey).isSome then .notInserted
  else if d.operations.contains row.operationId then .constraint
  else .inserted

/-- The states of an operation that is not over. -/
def isLive (row : WebJobOperation) : Bool :=
  row.state = .pending || row.state = .waitingAgent || row.state = .sent || row.state = .blocked

def answer : (q : Statement) → q.Answer
  | .catalog agentId row => row.answer (d.catalogs.get agentId)
  | .findLatestVersion agentId jobId => (d.recordedRevisions agentId jobId).max?
  | .findVersion key => d.versions.get key
  | .insertVersion key _ => !d.versions.contains key
  | .deleteJobs _ => ()
  | .insertJob key _ => !d.jobs.contains key
  | .findOperation key => d.findOperation key
  | .insertOperation row => d.insertOperationOutcome row
  | .supersedeOperations .. => ()

def writes : Statement → List RowWrite
  | .catalog agentId row =>
    ((row.written (d.catalogs.get agentId)).map (.catalog agentId)).toList
  | .insertVersion key row => if d.versions.contains key then [] else [.version key row]
  | .deleteJobs agentId => (d.jobs.keys.filter fun key => key.1 = agentId).map .removeJob
  | .insertJob key row => if d.jobs.contains key then [] else [.job key row]
  | .insertOperation row =>
    if d.insertOperationOutcome row = .inserted then [.operation row.operationId row] else []
  | .supersedeOperations agentId targetRevision =>
    (d.operations.values.filter fun row =>
        row.agentId = agentId && row.targetCatalogRevision < targetRevision && isLive row).map
      fun row => .operation row.operationId { row with state := .superseded }
  | .findLatestVersion .. | .findVersion _ | .findOperation _ => []

/-- The database. -/
def engine : Engine Statement Statement.Answer CatalogTables RowWrite RowKey where
  answer := answer
  writes := writes
  write := write
  key := RowWrite.key

end CatalogTables

/-- A transaction on the catalogs. -/
abbrev CatalogTransaction := Lib.Transaction DatabaseError Statement Statement.Answer

namespace Sql

def findLatestVersion (agentId : String) (jobId : List UInt8) : CatalogTransaction (Option Nat) :=
  statement (Statement.findLatestVersion agentId jobId)

def findVersion (key : VersionKey) : CatalogTransaction (Option AgentJobVersion) :=
  statement (Statement.findVersion key)

def insertVersion (key : VersionKey) (row : AgentJobVersion) : CatalogTransaction Bool :=
  statement (Statement.insertVersion key row)

def deleteJobs (agentId : String) : CatalogTransaction Unit := statement (Statement.deleteJobs agentId)

def insertJob (key : JobKey) (row : AgentJob) : CatalogTransaction Bool :=
  statement (Statement.insertJob key row)

def findOperation (key : IdempotencyKey) : CatalogTransaction (Option WebJobOperation) :=
  statement (Statement.findOperation key)

def insertOperation (row : WebJobOperation) : CatalogTransaction InsertOutcome :=
  statement (Statement.insertOperation row)

def supersedeOperations (agentId : String) (targetRevision : Nat) : CatalogTransaction Unit :=
  statement (Statement.supersedeOperations agentId targetRevision)

end Sql

variable (agentId : String)

def catalogConflict (expected actual : Nat) : DatabaseError :=
  .revisionConflict "Agent Job catalog" expected actual

/-- No unconditional update of a catalog's row finds another revision than the one read. -/
def CatalogTables.fair (d : CatalogTables) : Statement → Prop
  | .catalog agentId row => row.Fair (d.catalogs.get agentId)
  | _ => True

instance CatalogTables.fair.decidable (d : CatalogTables) : (q : Statement) → Decidable (d.fair q)
  | .catalog agentId row => inferInstanceAs (Decidable (row.Fair (d.catalogs.get agentId)))
  | .findLatestVersion .. | .findVersion _ | .insertVersion .. | .deleteJobs _ | .insertJob ..
  | .findOperation _ | .insertOperation _ | .supersedeOperations .. => .isTrue trivial

/-- The row with the revision of an Agent's catalog. -/
def catalogRow : RevisionRow DatabaseError CatalogTables.engine where
  key := .catalog agentId
  get := fun d => d.catalogs.get agentId
  set := fun d revision => { d with catalogs := d.catalogs.insert agentId revision }
  ask := fun row => statement (Statement.catalog agentId row)
  fair := CatalogTables.fair
  conflict := catalogConflict
  refused := .constraint
  exec_ask := by
    intro row d
    show (_, CatalogTables.engine.overlay d (Option.toList (Option.map _ _))) = _
    cases row.written (d.catalogs.get agentId) <;> rfl
  claims_ask := by
    intro β row f v hwritten hrest d
    show RowKey.catalog agentId ∈ CatalogTables.engine.keys (Option.toList (Option.map _ _)) ∧ _ ∨
      RowKey.catalog agentId ∉ CatalogTables.engine.keys (Option.toList (Option.map _ _)) ∧ _
    cases hrow : row.written (d.catalogs.get agentId) with
    | none => exact .inr ⟨List.not_mem_nil, hrest d hrow⟩
    | some revision => exact .inl ⟨List.mem_singleton_self _, hwritten d revision hrow⟩

/-! ## 3. Checks -/

def invalidJobCatalog {α : Type} (text : String) : Except DatabaseError α :=
  .error (.invalidJobCatalog text)

def validateAgentId : Except DatabaseError Unit :=
  if agentId = "" ∨ 64 < agentId.utf8ByteSize then
    invalidJobCatalog "Agent id is required for Job catalog"
  else .ok ()

def taskKind (definition : JobDefinition) : Except DatabaseError String :=
  if definition.revision = 0 then invalidJobCatalog "Job revision must be greater than zero"
  else if definition.jobId.length ≠ 16 then invalidJobCatalog "Job id must contain 16 bytes"
  else
    match definition.task.bind TaskDefinition.task with
    | none => invalidJobCatalog "Job task definition is required"
    | some (.builtin task _) => .ok (Remote.builtinKind task)
    | some (.plugin config) =>
      if config.taskKind = "" then invalidJobCatalog "Plugin Job task kind is required"
      else .ok config.taskKind

/-- The definitions with their kinds. -/
def withKinds : List JobDefinition → Except DatabaseError (List (JobDefinition × String))
  | [] => .ok []
  | definition :: rest => do
    let kind ← taskKind definition
    let rest ← withKinds rest
    return (definition, kind) :: rest

/-- `sort_by(job_id)`. -/
def sortJobs (jobs : List (JobDefinition × String)) : List (JobDefinition × String) :=
  jobs.insertionSort fun a b => a.1.jobId ≤ b.1.jobId

def validateJobs (jobs : List JobDefinition) :
    Except DatabaseError (List (JobDefinition × String)) := do
  let validated := sortJobs (← withKinds jobs)
  if anyPair (fun a b => a.1.jobId = b.1.jobId) validated then
    invalidJobCatalog "Agent Job catalog contains duplicate job ids"
  else return validated

/-- `i64::try_from`. -/
def toI64 (value : Nat) (text : String) : Except DatabaseError Nat :=
  if maxI64 < value then invalidJobCatalog text else .ok value

/-! ## 4. The replacement -/

/-- Go on if the database accepts the row. -/
def accepted {α : Type} (ok : Bool) (rest : CatalogTransaction α) : CatalogTransaction α :=
  if ok then rest else .failed .constraint

/-- No Job may go below a revision it ever had. -/
def checkHistory (agentId : String) :
    List (JobDefinition × String) → CatalogTransaction Unit
  | [] => pure ()
  | (definition, _) :: rest => do
    let revision ← ofExcept (toI64 definition.revision "Job revision exceeds i64")
    let latest ← Sql.findLatestVersion agentId definition.jobId
    if latest.any (revision < ·) then
      .failed (.invalidJobCatalog "Job revision must not move backwards")
    else checkHistory agentId rest

/-- The version of a Job, unless it is recorded already: then it must be the same. -/
def recordVersion (definition : JobDefinition) (kind : String) :
    CatalogTransaction Unit := do
  let key : VersionKey := (agentId, definition.jobId, definition.revision)
  let previous ← Sql.findVersion key
  match previous with
  | some previous =>
    if previous.taskKind ≠ kind ∨ previous.definition ≠ definition then
      .failed (.invalidJobCatalog "Job revision was previously stored with different content")
    else return ()
  | none =>
    let ok ← Sql.insertVersion key ⟨kind, definition⟩
    accepted ok (pure ())

/-- The new rows. -/
def storeJobs (agentId : String) : List (JobDefinition × String) → CatalogTransaction Unit
  | [] => pure ()
  | (definition, kind) :: rest => do
    recordVersion agentId definition kind
    let ok ← Sql.insertJob (agentId, definition.jobId)
      ⟨definition.revision, definition.enabled, kind, definition⟩
    accepted ok (storeJobs agentId rest)

/-- What a replacement returns. -/
structure AgentJobCatalogRecord where
  agentId : String
  catalog : ReplaceAllJobs
  deriving DecidableEq

/-- The replacement from the point on where the revision has been read. -/
def replaceCatalogAt (validated : List (JobDefinition × String))
    (expected previous : Option Nat) : CatalogTransaction AgentJobCatalogRecord :=
  if expected.any (· ≠ previous.getD 0) then
    .failed (catalogConflict (expected.getD 0) (previous.getD 0))
  else do
    (catalogRow agentId).createIfFirst previous expected 1
    let revision ← ofExcept (toI64 (previous.getD 0 + 1) "catalog revision overflow")
    (catalogRow agentId).advanceIfExpected previous expected revision
    checkHistory agentId validated
    Sql.deleteJobs agentId
    storeJobs agentId validated
    (catalogRow agentId).publish previous expected revision
    return ⟨agentId, ⟨revision, validated.map Prod.fst⟩⟩

def replaceAgentJobCatalogInTransaction (jobs : List JobDefinition) (expected : Option Nat) :
    CatalogTransaction AgentJobCatalogRecord := do
  ofExcept (validateAgentId agentId)
  let validated ← ofExcept (validateJobs jobs)
  let _ ← ofExcept (toI64 (expected.getD 0) "expected catalog revision exceeds i64")
  let previous ← (catalogRow agentId).find
  replaceCatalogAt agentId validated expected previous

def replaceAgentJobCatalogIfRevision (jobs : List JobDefinition) (expected : Option Nat) :
    CatalogTransaction AgentJobCatalogRecord := do
  let record ← replaceAgentJobCatalogInTransaction agentId jobs expected
  let target ← ofExcept (toI64 record.catalog.catalogRevision "catalog revision exceeds i64")
  Sql.supersedeOperations agentId target
  return record

/-! ## 5. The Web path -/

structure WebJobOperationDraft where
  operationId : String
  actorUserId : String
  method : String
  clientMutationId : String
  requestHash : String
  agentId : String
  action : String
  targetJobId : Option String
  responseJson : String
  deriving DecidableEq

/-- What is not the Server's own code: the texts `Uuid::parse_str` and `serde_json` accept, and the
    digest of a catalog. -/
structure WebEnv where
  isUuid : String → Bool
  isJson : String → Bool
  catalogDigest : ReplaceAllJobs → List UInt8

/-- `is_ascii_hexdigit() && !is_ascii_uppercase()`. -/
def isLowerHex (c : Char) : Bool := c.isDigit || ('a' ≤ c && c ≤ 'f')

/-- A text of 1 to `limit` bytes. -/
def isShort (text : String) (limit : Nat) : Bool := text ≠ "" && text.utf8ByteSize ≤ limit

def validateOperationDraft (env : WebEnv) (draft : WebJobOperationDraft) (agentId : String) :
    Except DatabaseError Unit :=
  if ¬ env.isUuid draft.operationId then
    invalidJobCatalog "Web operation id must be a UUID string"
  else if ¬ isShort draft.actorUserId 36 then
    invalidJobCatalog "Web operation actor user id must contain 1 to 36 bytes"
  else if ¬ isShort draft.method 64 then
    invalidJobCatalog "Web operation method must contain 1 to 64 bytes"
  else if ¬ isShort draft.clientMutationId 36 then
    invalidJobCatalog "Web operation client mutation id must contain 1 to 36 bytes"
  else if draft.requestHash.utf8ByteSize ≠ 64 ∨ ¬ draft.requestHash.toList.all isLowerHex then
    invalidJobCatalog "Web operation request hash must be lowercase SHA-256 hex"
  else if draft.agentId ≠ agentId ∨ ¬ isShort agentId 64 then
    invalidJobCatalog "Web operation Agent id does not match catalog target"
  else if ¬ isShort draft.action 64 then
    invalidJobCatalog "Web operation action must contain 1 to 64 bytes"
  else if draft.targetJobId.any (!env.isUuid ·) then
    invalidJobCatalog "Web operation target Job id must be a UUID string"
  else if ¬ env.isJson draft.responseJson then
    invalidJobCatalog "Web operation initial response must be valid JSON"
  else .ok ()

structure WebJobCatalogMutationRecord where
  catalog : Option AgentJobCatalogRecord
  operation : WebJobOperation
  replayed : Bool
  deriving DecidableEq

def WebJobOperationDraft.operation (draft : WebJobOperationDraft) (agentId : String)
    (expected : Nat) (digest : List UInt8) : WebJobOperation where
  operationId := draft.operationId
  actorUserId := draft.actorUserId
  method := draft.method
  clientMutationId := draft.clientMutationId
  requestHash := draft.requestHash
  agentId := agentId
  action := draft.action
  expectedCatalogRevision := expected
  targetCatalogRevision := expected + 1
  desiredDigest := digest
  targetJobId := draft.targetJobId
  state := .waitingAgent
  commandId := none
  reason := none
  responseJson := draft.responseJson

/-- The key was used before: for the same request, or for another one. -/
def replayOperation (existing : WebJobOperation) (draft : WebJobOperationDraft) :
    CatalogTransaction WebJobCatalogMutationRecord :=
  if existing.requestHash ≠ draft.requestHash then .failed .webJobIdempotencyConflict
  else return ⟨none, existing, true⟩

def replaceAgentJobCatalogForWeb (env : WebEnv) (agentId : String) (jobs : List JobDefinition)
    (expected : Nat) (draft : WebJobOperationDraft) :
    CatalogTransaction WebJobCatalogMutationRecord := do
  ofExcept (validateOperationDraft env draft agentId)
  let _ ← ofExcept (toI64 expected "expected catalog revision exceeds i64")
  let target ← ofExcept (toI64 (expected + 1) "catalog revision overflow")
  let operation := draft.operation agentId expected (env.catalogDigest ⟨target, jobs⟩)
  let existing ← Sql.findOperation operation.idempotencyKey
  match existing with
  | some existing => replayOperation existing draft
  | none =>
    let outcome ← Sql.insertOperation operation
    match outcome with
    | .constraint => .failed .constraint
    | .notInserted => do
      let existing ← Sql.findOperation operation.idempotencyKey
      match existing with
      | some existing => replayOperation existing draft
      | none =>
        .failed (.invalidJobCatalog "Web operation idempotency reservation was not persisted")
    | .inserted => do
      let catalog ← replaceAgentJobCatalogInTransaction agentId jobs (some expected)
      Sql.supersedeOperations agentId target
      return ⟨some catalog, operation, false⟩

end Smalux.Server
