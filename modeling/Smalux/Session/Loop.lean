/-
  Subject:   The business loop of an authenticated Agent (transport/session/business.rs).

  One iteration of the loop takes one message of the Agent, or the signal that the Agent's catalog or
  runtime configuration has changed, and answers it. The loop's own variables are `BusinessSession`;
  the database and the registries it shares with everybody else are `World`, which anybody may change
  between two iterations. What the database does in an iteration (whether it can be read, whether a
  write succeeds) and the id drawn for a command come with the iteration (`Turn`). Within an iteration
  nobody else changes the world, and what is sent arrives or ends the session later.

  The cache of the schema registry holds what the table holds, so there is only one table.

  A `record` is kept of what happens: what comes in, what is accepted, what is loaded for whom, what
  is sent and what is left out. With what is sent goes what was paused, or pending, at that moment.

  * `Desk.handle` -- one iteration; `step` -- an iteration, or a change of the world.
-/
import Smalux.Lib.Record
import Smalux.Session.Filters

namespace Smalux.Session

open Lib Server Proto

/-! ## 1. The world -/

/-- What a stored schema says about itself. -/
structure SchemaIdentity where
  pluginId : String
  pluginVersion : String
  formatVersion : Nat
  taskKinds : List String
  deriving DecidableEq, Repr

structure World where
  jobs : JobStore
  runtimes : RuntimeTables
  /-- by hash -/
  schemas : Table (List UInt8) SchemaIdentity
  pauses : Pauses
  /-- the process instance last seen of each Agent -/
  instances : Table String (List UInt8)

/-- The Agent, and what others compute: digests of encodings, and schemas out of their encoding. -/
structure SessionEnv where
  agentId : String
  digestCatalog : ReplaceAllJobs → List UInt8
  digestRuntime : PluginRuntimeSnapshot → List UInt8
  /-- `decode_checked`, with the hash -/
  decodeSchema : List UInt8 → Option (List UInt8 × SchemaIdentity)

/-- `catalog_digest`: the order of the Jobs does not matter. -/
def SessionEnv.catalogDigest (env : SessionEnv) (catalog : ReplaceAllJobs) : List UInt8 :=
  env.digestCatalog { catalog with jobs := catalog.jobs.insertionSort fun a b => a.jobId ≤ b.jobId }

/-- By id, then by version. -/
def notAfter (a b : String × String) : Prop := a.1 < b.1 ∨ a.1 = b.1 ∧ a.2 ≤ b.2
  deriving Decidable

/-- `runtime_digest`. -/
def SessionEnv.runtimeDigest (env : SessionEnv) (snapshot : PluginRuntimeSnapshot) :
    List UInt8 :=
  env.digestRuntime { snapshot with
    plugins := snapshot.plugins.insertionSort fun a b =>
      notAfter (a.pluginId, a.version) (b.pluginId, b.version) }

/-- The Agent's rows, `ORDER BY plugin_id, plugin_version`. -/
def storedRuntimes (d : RuntimeTables) (agentId : String) : List StoredPluginRuntime :=
  ((d.runtimes.values.filter fun row => row.agentId = agentId).map
      AgentPluginRuntime.runtime).insertionSort fun a b =>
    notAfter (a.pluginId, a.pluginVersion) (b.pluginId, b.pluginVersion)

/-- The revision of the Agent's configuration. -/
def runtimeRevision (d : RuntimeTables) (agentId : String) : Nat :=
  (d.catalogs.get agentId).getD emptyRuntimeRevision

def loadAgentPluginRuntime (d : RuntimeTables) (agentId : String)
    (inventory : AgentPluginInventory) : PluginRuntimeSnapshot :=
  match d.catalogs.get agentId with
  | none => ⟨emptyRuntimeRevision, []⟩
  | some revision =>
    let rows := (storedRuntimes d agentId).filter fun runtime =>
      inventory.plugins.any fun installed =>
        installed.pluginId = runtime.pluginId && installed.version = runtime.pluginVersion &&
          installed.schemaHash = runtime.schemaHash
    ⟨revision, rows.map fun runtime =>
      ⟨runtime.pluginId, runtime.pluginVersion, runtime.schemaVersion, runtime.config,
        runtime.requestedConcurrency⟩⟩

/-- `validate_identity`. -/
def sameIdentity (schema : SchemaIdentity) (entry : PluginInventoryEntry) : Bool :=
  schema.pluginId = entry.pluginId && schema.pluginVersion = entry.version &&
    schema.formatVersion = entry.schemaFormatVersion && schema.taskKinds = entry.taskKinds

/-- The hashes of an inventory without a stored schema; an error if a stored one is another's. -/
def unknownHashes (schemas : Table (List UInt8) SchemaIdentity) :
    List PluginInventoryEntry → Except String (List (List UInt8))
  | [] => .ok []
  | entry :: rest =>
    if entry.schemaHash.length ≠ 32 then
      .error "Plus schema hash must contain exactly 32 bytes"
    else
      match schemas.get entry.schemaHash with
      | some schema =>
        if sameIdentity schema entry then unknownHashes schemas rest
        else .error "Plus schema identity does not match the current inventory"
      | none => (unknownHashes schemas rest).map (entry.schemaHash :: ·)

def missingForInventory (schemas : Table (List UInt8) SchemaIdentity)
    (inventory : AgentPluginInventory) : Except String (List (List UInt8)) :=
  (unknownHashes schemas inventory.plugins).map fun hashes =>
    (hashes.insertionSort (· ≤ ·)).dedup

/-- `store_response`: the schema's identity if it is the one asked for. -/
def checkResponse (env : SessionEnv) (inventory : AgentPluginInventory)
    (response : PluginSchemaResponse) : Except String SchemaIdentity :=
  match env.decodeSchema response.schemaBundle with
  | none => .error "Plus schema is invalid"
  | some (hash, schema) =>
    if hash ≠ response.schemaHash then
      .error "Plus schema payload does not match its claimed hash"
    else
      match inventory.plugins.find? fun entry => entry.schemaHash = response.schemaHash with
      | none => .error "Plus schema was not declared by the current inventory"
      | some entry =>
        if sameIdentity schema entry then .ok schema
        else .error "Plus schema identity does not match the current inventory"

namespace Pauses

/-- `record`. -/
def note (pauses : Pauses) (agentId : String) (notice : PluginPauseNotice) :
    Except String Pauses :=
  if agentId = "" ∨ notice.pluginId = "" ∨ notice.pluginVersion = "" ∨
      notice.runtimeRevision = 0 ∨ notice.failureCount = 0 then
    .error "invalid Plus plugin pause notice"
  else .ok (pauses.insert (agentId, notice.pluginId, notice.pluginVersion) notice)

/-- A plugin of a newer runtime is no longer paused. -/
def release (agentId : String) (revision : Nat) (pauses : Pauses)
    (plugin : PluginRuntimeConfig) : Pauses :=
  match pauses.get (agentId, plugin.pluginId, plugin.version) with
  | some notice =>
    if notice.runtimeRevision < revision then
      pauses.remove (agentId, plugin.pluginId, plugin.version)
    else pauses
  | none => pauses

def acknowledgeNewRuntime (pauses : Pauses) (agentId : String)
    (snapshot : PluginRuntimeSnapshot) : Pauses :=
  snapshot.plugins.foldl (release agentId snapshot.revision) pauses

end Pauses

/-! ## 2. The session -/

/-- The variables of `run_business_session`. -/
structure BusinessSession where
  acceptedPolicy : Option AgentJobPolicySnapshot := none
  acceptedCapability : Option AgentCapabilitySnapshot := none
  sentPluginRuntime : Option PluginRuntimeSnapshot := none
  pluginRuntimeReady : Bool := false
  acceptedPluginInventory : Option AgentPluginInventory := none
  pendingSchemaHashes : List (List UInt8) := []
  lastSentCatalog : Option ReplaceAllJobs := none
  reconcileSummary : Option AgentReconcileSummary := none
  forceReconcile : Bool := true
  resyncRequestedRevision : Option Nat := none

inductive Event where
  | catalogChanged
  | runtimeChanged
  /-- none: another body -/
  | policy (snapshot : Option AgentJobPolicySnapshot)
  | summary (summary : AgentReconcileSummary)
  /-- none: another body -/
  | capability (snapshot : Option AgentCapabilitySnapshot)
  | inventory (inventory : AgentPluginInventory)
  | schemaResponse (response : PluginSchemaResponse)
  | acknowledgement (ack : AgentPluginAck)
  | pauseNotice (notice : PluginPauseNotice)
  | pauseAcknowledgement
  /-- another body of `AgentPluginSync` -/
  | otherPlugin
  | commandResult (result : ReceivedCommandResult)
  | taskReport
  | jobEvent
  | other
  /-- the connection or a channel of signals is closed -/
  | closed
  deriving DecidableEq

/-- What is sent besides catalogs and runtimes. -/
inductive Reply where
  | policyQuery
  | capabilityQuery
  | policyAcknowledgement (revision : Nat)
  | schemaQuery (hashes : List (List UInt8))
  | pauseAcknowledgement (ack : PluginPauseAck)
  | invalidMessage (text : String)
  deriving DecidableEq

inductive Entry where
  | received (event : Event)
  | acceptedPolicy (policy : AgentJobPolicySnapshot)
  | acceptedCapability (capability : AgentCapabilitySnapshot)
  | acceptedInventory (inventory : AgentPluginInventory)
  /-- `missing_for_inventory` has succeeded -/
  | checkedInventory (inventory : AgentPluginInventory)
  | loadRuntime (inventory : AgentPluginInventory)
  /-- sent while these schemas were pending -/
  | runtimeSnapshot (snapshot : PluginRuntimeSnapshot) (pending : List (List UInt8))
  /-- acknowledged, or named by the Agent's summary: the runtime is ready -/
  | runtimeReady (snapshot : PluginRuntimeSnapshot)
  | loadCatalog (policy : AgentJobPolicySnapshot)
      (capability : AgentCapabilitySnapshot) (inventory : AgentPluginInventory)
  | computedCatalog (catalog : ReplaceAllJobs)
  /-- not sent, since it has been sent or is synchronized -/
  | skippedCatalog (catalog : ReplaceAllJobs)
  /-- sent while these plugins were paused -/
  | replaceAll (commandId : List UInt8) (catalog : ReplaceAllJobs) (paused : Pauses)
  | sent (reply : Reply)
  | panicked

/-- What the database does in an iteration, and the id drawn for a command. -/
structure Turn where
  commandId : List UInt8
  readsJobs : Bool := true
  readsRuntimes : Bool := true
  readsSchemas : Bool := true
  storesSchema : Bool := true
  saves : Bool := true
  records : Bool := true

structure Desk where
  world : World
  session : BusinessSession
  record : List Entry
  running : Bool

namespace Desk

def log (d : Desk) (entry : Entry) : Desk := { d with record := entry :: d.record }

def reply (d : Desk) (reply : Reply) : Desk := d.log (.sent reply)

def invalidMessage (d : Desk) (text : String) : Desk := d.reply (.invalidMessage text)

/-- The session ends with an error. -/
def stop (d : Desk) : Desk := { d with running := false }

/-- An `expect` fails. -/
def panic (d : Desk) : Desk := (d.log .panicked).stop

def update (d : Desk) (f : BusinessSession → BusinessSession) : Desk :=
  { d with session := f d.session }

end Desk

/-! ## 3. Catalogs -/

/-- The Agent's summary names this catalog. -/
def namesCatalog (env : SessionEnv) (catalog : ReplaceAllJobs)
    (summary : AgentReconcileSummary) : Bool :=
  summary.catalogRevision = catalog.catalogRevision &&
    summary.catalogDigest = env.catalogDigest catalog

namespace Desk

variable (env : SessionEnv) (turn : Turn)

/-- Store the command, send it, and remember the catalog. -/
def sendReplaceAll (d : Desk) (catalog : ReplaceAllJobs) : Desk × Bool :=
  if turn.records then
    ((d.log (.replaceAll turn.commandId catalog d.world.pauses)).update fun s =>
      { s with lastSentCatalog := some catalog }, true)
  else (d.stop, false)

/-- The catalog goes out, unless it is not forced and the Agent has it. -/
def deliver (d : Desk) (force : Bool) (catalog : ReplaceAllJobs) : Desk × Bool :=
  if !force && d.session.lastSentCatalog = some catalog then
    (d.log (.skippedCatalog catalog), false)
  else if !force && d.session.reconcileSummary.any (namesCatalog env catalog) then
    ((d.log (.skippedCatalog catalog)).update fun s =>
      { s with lastSentCatalog := some catalog }, false)
  else d.sendReplaceAll turn catalog

/-- `send_job_catalog`; true if something was sent. -/
def sendJobCatalog (d : Desk) (force : Bool) (policy : AgentJobPolicySnapshot)
    (capability : AgentCapabilitySnapshot) (inventory : AgentPluginInventory)
    (runtime : PluginRuntimeSnapshot) : Desk × Bool :=
  let d := d.log (.loadCatalog policy capability inventory)
  let computed :=
    if turn.readsJobs then
      sessionCatalog env.agentId policy capability inventory runtime d.world.pauses
        d.world.jobs.tables
    else none
  match computed with
  | none => (d, false)
  | some catalog => (d.log (.computedCatalog catalog)).deliver env turn force catalog

end Desk

/-- What an evaluation of the catalog needs, once the runtime is ready. -/
def BusinessSession.request (s : BusinessSession) :
    Option (AgentJobPolicySnapshot × AgentCapabilitySnapshot ×
      AgentPluginInventory) :=
  if s.pluginRuntimeReady then
    match s.acceptedPolicy, s.acceptedCapability, s.acceptedPluginInventory with
    | some policy, some capability, some inventory => some (policy, capability, inventory)
    | _, _, _ => none
  else none

namespace Desk

variable (env : SessionEnv) (turn : Turn)

variable (d : Desk) (inventory : AgentPluginInventory)

/-- Evaluate the catalog if that can be done; `converged` says whether the session then counts as
    synchronized. -/
def reevaluate (converged : Bool) : Desk :=
  match d.session.request with
  | none => d
  | some (policy, capability, inventory) =>
    match d.session.sentPluginRuntime with
    | none => d.panic
    | some runtime =>
      let d := (d.sendJobCatalog env turn d.session.forceReconcile policy capability inventory
        runtime).1
      if converged then d.update fun s => { s with forceReconcile := false } else d

/-! ## 4. Runtimes -/

/-- The Agent's summary names this runtime. -/
def namesRuntime (snapshot : PluginRuntimeSnapshot) (summary : AgentReconcileSummary) :
    Bool :=
  summary.runtimeRevision = snapshot.revision && summary.runtimeDigest = env.runtimeDigest snapshot

/-- `send_plugin_runtime_snapshot`. -/
def sendPluginRuntimeSnapshot : Desk :=
  let d := d.log (.loadRuntime inventory)
  if turn.readsRuntimes then
    let snapshot := loadAgentPluginRuntime d.world.runtimes env.agentId inventory
    let d := { d with
      world := { d.world with
        pauses := d.world.pauses.acknowledgeNewRuntime env.agentId snapshot } }
    let synchronized :=
      !d.session.forceReconcile && d.session.reconcileSummary.any (namesRuntime env snapshot)
    let d := d.update fun s =>
      { s with sentPluginRuntime := some snapshot, pluginRuntimeReady := synchronized }
    if synchronized then d.log (.runtimeReady snapshot)
    else d.log (.runtimeSnapshot snapshot d.session.pendingSchemaHashes)
  else d

/-- No runtime is sent or ready. -/
def resetRuntime : Desk :=
  d.update fun s => { s with sentPluginRuntime := none, pluginRuntimeReady := false }

/-! ## 5. Messages and signals -/

def onCatalogChanged : Desk :=
  (d.update fun s => { s with resyncRequestedRevision := none }).reevaluate env turn true

def onRuntimeChanged : Desk :=
  match d.session.acceptedPluginInventory with
  | none => d
  | some inventory => d.resetRuntime.sendPluginRuntimeSnapshot env turn inventory

/-- The policy is accepted. One that is new makes the summary worthless. -/
def acceptPolicy (policy : AgentJobPolicySnapshot) : Desk :=
  (d.log (.acceptedPolicy policy)).update fun s =>
    { s with
      acceptedPolicy := some policy
      reconcileSummary := if s.acceptedPolicy = some policy then s.reconcileSummary else none }

def onPolicy (snapshot : Option AgentJobPolicySnapshot) : Desk :=
  match snapshot with
  | none => d.invalidMessage "Server requires an Agent Job policy snapshot"
  | some snapshot =>
    match d.session.acceptedPolicy.filter fun current => snapshot.revision < current.revision with
    | some current => d.reply (.policyAcknowledgement current.revision)
    | none =>
      match validatePolicySnapshot snapshot d.session.acceptedPolicy with
      | .error reason => d.invalidMessage reason
      | .ok () =>
        let accepted :=
          (d.acceptPolicy snapshot).reply (.policyAcknowledgement snapshot.revision)
        if d.session.acceptedPolicy = some snapshot then accepted
        else accepted.reevaluate env turn false

/-- `observe_reconcile_instance`, and the summary is the one to compare with. -/
def onSummary (summary : AgentReconcileSummary) : Desk :=
  match validateReconcileSummary summary with
  | .error _ => d.update fun s => { s with reconcileSummary := none }
  | .ok () =>
    let newInstance := decide (d.world.instances.get env.agentId ≠ some summary.instanceId)
    { d with
      world := { d.world with
        instances := d.world.instances.insert env.agentId summary.instanceId }
      session := { d.session with
        forceReconcile := newInstance, reconcileSummary := some summary } }

def acceptCapability (capability : AgentCapabilitySnapshot) : Desk :=
  (d.log (.acceptedCapability capability)).update fun s =>
    { s with acceptedCapability := some capability }

def onCapability (snapshot : Option AgentCapabilitySnapshot) : Desk :=
  match snapshot with
  | none => d.invalidMessage "Server requires an Agent capability snapshot"
  | some snapshot =>
    match validateCapabilitySnapshot snapshot with
    | .error reason => d.invalidMessage reason
    | .ok () =>
      if turn.saves then (d.acceptCapability snapshot).reevaluate env turn false
      else d.stop

def acceptInventory : Desk :=
  (d.log (.acceptedInventory inventory)).update fun s =>
    { s with acceptedPluginInventory := some inventory }

/-- `missing_for_inventory`, which reads the database. -/
def missingSchemas : Except String (List (List UInt8)) :=
  if turn.readsSchemas then missingForInventory d.world.schemas inventory
  else .error "failed to load Plus schemas"

/-- The inventory's schemas are checked: these are missing, and the runtime starts anew. -/
def checkInventory (missing : List (List UInt8)) : Desk :=
  ((d.log (.checkedInventory inventory)).update fun s =>
    { s with pendingSchemaHashes := missing }).resetRuntime

def onInventory : Desk :=
  match validatePluginInventory inventory with
  | .error reason => d.invalidMessage reason
  | .ok () =>
    if turn.saves then
      match d.missingSchemas turn inventory with
      | .error _ =>
        (d.acceptInventory inventory).invalidMessage "Agent plugin Schema inventory is invalid"
      | .ok [] =>
        (((d.acceptInventory inventory).checkInventory inventory []).sendPluginRuntimeSnapshot
          env turn inventory).reevaluate env turn true
      | .ok (hash :: missing) =>
        ((d.acceptInventory inventory).checkInventory inventory (hash :: missing)).reply
          (.schemaQuery (hash :: missing))
    else (d.acceptInventory inventory).stop

/-- `swap_remove`: the last one takes the place. -/
def swapRemove {α : Type} (values : List α) (index : Nat) : List α :=
  match values.getLast? with
  | none => []
  | some last => if index + 1 = values.length then values.dropLast
      else values.dropLast.set index last

def onSchemaResponse (response : PluginSchemaResponse) : Desk :=
  match d.session.acceptedPluginInventory with
  | none => d.invalidMessage "Agent plugin Schema response arrived before inventory"
  | some inventory =>
    match d.session.pendingSchemaHashes.findIdx? (· = response.schemaHash) with
    | none => d.invalidMessage "Agent plugin Schema response was not requested"
    | some index =>
      match checkResponse env inventory response with
      | .error _ => d.invalidMessage "Agent plugin Schema response is invalid"
      | .ok schema =>
        if turn.storesSchema then
          let remaining := swapRemove d.session.pendingSchemaHashes index
          let stored := { d with
            world := { d.world with
              schemas := d.world.schemas.insert response.schemaHash schema }
            session := { d.session with pendingSchemaHashes := remaining } }
          if remaining = [] then stored.sendPluginRuntimeSnapshot env turn inventory
          else stored
        else d.invalidMessage "Agent plugin Schema response is invalid"

/-- The runtime is acknowledged. -/
def acknowledge (runtime : PluginRuntimeSnapshot) : Desk :=
  (d.log (.runtimeReady runtime)).update fun s => { s with pluginRuntimeReady := true }

def onAcknowledgement (ack : AgentPluginAck) : Desk :=
  match d.session.sentPluginRuntime with
  | none => d.invalidMessage "Agent plugin acknowledgement arrived before runtime snapshot"
  | some sent =>
    if ack.revision ≠ sent.revision then
      d.invalidMessage "Agent plugin acknowledgement has an unexpected revision"
    else if ack.accepted then (d.acknowledge sent).reevaluate env turn true
    else d

/-- The notice is about a plugin of the runtime sent. -/
def validPause (s : BusinessSession) (notice : PluginPauseNotice) : Bool :=
  s.sentPluginRuntime.any fun snapshot =>
    snapshot.revision = notice.runtimeRevision && snapshot.plugins.any fun plugin =>
      plugin.pluginId = notice.pluginId && plugin.version = notice.pluginVersion

def pauseAck (notice : PluginPauseNotice) (error : Option String) : Reply :=
  .pauseAcknowledgement
    ⟨notice.pluginId, notice.pluginVersion, notice.runtimeRevision, error.isNone, error⟩

/-- The catalog sent last, without the Jobs of paused plugins, goes out again. -/
def withoutPaused : Desk :=
  match d.session.lastSentCatalog with
  | none => d
  | some catalog =>
    (d.sendReplaceAll turn (d.world.pauses.filterCatalog env.agentId catalog)).1

def onPauseNotice (notice : PluginPauseNotice) : Desk :=
  if validPause d.session notice then
    match d.world.pauses.note env.agentId notice with
    | .error reason => d.reply (pauseAck notice (some reason))
    | .ok pauses =>
      let d := ({ d with world := { d.world with pauses := pauses } }).withoutPaused env turn
      if d.running then d.reply (pauseAck notice none) else d
  else
    d.reply (pauseAck notice (some "pause notice does not match the active runtime snapshot"))

/-- The Agent asks for everything once more; asked twice at one revision, it gets it once. -/
def resynchronize (revision : Nat) : Desk :=
  match d.session.request, d.session.sentPluginRuntime with
  | some (policy, capability, inventory), some runtime =>
    let result := d.sendJobCatalog env turn true policy capability inventory runtime
    if result.2 then
      result.1.update fun s => { s with resyncRequestedRevision := some revision }
    else result.1
  | _, _ => d

def onCommandResult (result : ReceivedCommandResult) : Desk :=
  if result.status = statusApplied then
    d.update fun s => { s with resyncRequestedRevision := none }
  else if result.status = statusResyncRequired ∧
      d.session.resyncRequestedRevision ≠ some result.catalogRevision then
    d.resynchronize env turn result.catalogRevision
  else d

/-- One iteration of the loop. -/
def handle (event : Event) : Desk :=
  let d := d.log (.received event)
  match event with
  | .catalogChanged => d.onCatalogChanged env turn
  | .runtimeChanged => d.onRuntimeChanged env turn
  | .policy snapshot => d.onPolicy env turn snapshot
  | .summary summary => d.onSummary env summary
  | .capability snapshot => d.onCapability env turn snapshot
  | .inventory inventory => d.onInventory env turn inventory
  | .schemaResponse response => d.onSchemaResponse env turn response
  | .acknowledgement ack => d.onAcknowledgement env turn ack
  | .pauseNotice notice => d.onPauseNotice env turn notice
  | .pauseAcknowledgement =>
    d.invalidMessage "Server does not accept a Plus pause acknowledgement"
  | .otherPlugin =>
    d.invalidMessage ("Server requires an Agent plugin inventory, Schema response, " ++
      "acknowledgement or pause notice")
  | .commandResult result => d.onCommandResult env turn result
  | .taskReport | .jobEvent => if turn.saves then d else d.stop
  | .other => d.invalidMessage "unexpected Agent business message"
  | .closed => d.stop

/-! ## 6. Runs -/

/-- The session begins: it asks for the policy and the capability. -/
def start (world : World) : Desk :=
  ⟨world, {}, [.sent .capabilityQuery, .sent .policyQuery], true⟩

end Desk

/-- An iteration of the loop, or somebody else changes the world. -/
inductive Act where
  | event (event : Event) (turn : Turn)
  | outside (world : World)

def step (env : SessionEnv) (d : Desk) : Act → Desk
  | .event event turn => if d.running then d.handle env turn event else d
  | .outside world => { d with world := world }

/-! ## 7. An Agent with one plugin -/

section Sample

def echoSchema : SchemaIdentity := ⟨"plus.echo", "1.0.0", 1, ["plus.echo.v1"]⟩

def echoInstalled : AgentPluginInventory := ⟨1, [installed "plus.echo" ["plus.echo.v1"]]⟩

def cpuAndEcho : JobStore :=
  .ofCalls .lenient [.direct "agent-1" [cpuJob 1 1, pluginJob 2 "plus.echo" "plus.echo.v1"] none]

def echoRuntime : RuntimeTables :=
  ((replaceAgentPluginRuntimeIfRevision "agent-1"
    [⟨"plus.echo", "1.0.0", List.replicate 32 0, 1, [], 1⟩] none).atomically
      RuntimeTables.engine .empty).2

/-- The digests tell revisions and numbers of entries apart. -/
def echoAgent : SessionEnv where
  agentId := "agent-1"
  digestCatalog catalog :=
    List.replicate 30 0 ++ [.ofNat catalog.catalogRevision, .ofNat catalog.jobs.length]
  digestRuntime snapshot :=
    List.replicate 30 0 ++ [.ofNat snapshot.revision, .ofNat snapshot.plugins.length]
  decodeSchema _ := some (List.replicate 32 0, echoSchema)

def echoWorld : World :=
  ⟨cpuAndEcho, echoRuntime, Table.empty.insert (List.replicate 32 0) echoSchema, .empty, .empty⟩

/-- An iteration in which the database does all it is asked for. -/
def plainly (commandId : UInt8) (event : Event) : Act :=
  .event event { commandId := [commandId] }

/-- The Agent's messages, without a summary, and its acknowledgement of the runtime. -/
def signOn : List Act :=
  [plainly 1 (.policy (some allowing)), plainly 2 (.capability (some collecting)),
    plainly 3 (.inventory echoInstalled), plainly 4 (.acknowledgement ⟨2, true⟩)]

end Sample

end Smalux.Session
