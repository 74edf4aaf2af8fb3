/-
  Subject:   What Agent and Server tell each other in a business session (policy.proto,
             capability.proto, plugin.proto, reconciliation.proto), and what the Server checks of it.

  Of a pause notice the times and texts are left out, which nobody looks at, and of an acknowledgement
  the error, which is only logged.

  * `validatePolicySnapshot`, `validateCapabilitySnapshot`, `validatePluginInventory`,
    `validateReconcileSummary` -- the checks, with their texts.
-/
import Mathlib.Data.String.Basic
import Smalux.Lib.Pairs
import Smalux.Remote.Proto

namespace Smalux.Proto

/-! ## 1. Messages -/

structure AgentJobPolicySnapshot where
  revision : Nat
  denyAll : Bool
  deniedTaskKinds : List String
  deriving DecidableEq, Repr

structure AgentCapabilitySnapshot where
  revision : Nat
  agentVersion : String
  taskKinds : List String
  /-- as numbers -/
  probeProtocols : List Int
  deriving DecidableEq, Repr

structure PluginInventoryEntry where
  pluginId : String
  version : String
  taskKinds : List String
  schemaHash : List UInt8
  schemaFormatVersion : Nat
  deriving DecidableEq, Repr

structure AgentPluginInventory where
  revision : Nat
  plugins : List PluginInventoryEntry
  deriving DecidableEq, Repr

structure PluginRuntimeConfig where
  pluginId : String
  version : String
  schemaVersion : Nat
  config : List UInt8
  requestedConcurrency : Nat
  deriving DecidableEq, Repr

structure PluginRuntimeSnapshot where
  revision : Nat
  plugins : List PluginRuntimeConfig
  deriving DecidableEq, Repr

structure AgentReconcileSummary where
  instanceId : List UInt8
  catalogRevision : Nat
  catalogDigest : List UInt8
  runtimeRevision : Nat
  runtimeDigest : List UInt8
  deriving DecidableEq, Repr

structure PluginSchemaResponse where
  schemaHash : List UInt8
  schemaBundle : List UInt8
  deriving DecidableEq, Repr

structure AgentPluginAck where
  revision : Nat
  accepted : Bool
  deriving DecidableEq, Repr

structure PluginPauseNotice where
  pluginId : String
  pluginVersion : String
  runtimeRevision : Nat
  failureCount : Nat
  deriving DecidableEq, Repr

structure PluginPauseAck where
  pluginId : String
  pluginVersion : String
  runtimeRevision : Nat
  accepted : Bool
  error : Option String
  deriving DecidableEq, Repr

/-- `JobCommandResult` as it arrives: the status is a number. -/
structure ReceivedCommandResult where
  commandId : List UInt8
  status : Int
  catalogRevision : Nat
  deriving DecidableEq, Repr

/-- `JOB_COMMAND_STATUS_APPLIED`. -/
def statusApplied : Int := 1

/-- `JOB_COMMAND_STATUS_REJECTED`. -/
def statusRejected : Int := 2

/-- `JOB_COMMAND_STATUS_RESYNC_REQUIRED`. -/
def statusResyncRequired : Int := 3

end Smalux.Proto

namespace Smalux.Session

open Lib

/-! ## 2. Checks (business.rs) -/

def maxDeniedTaskKinds : Nat := 1024
def maxTaskKindBytes : Nat := 256
def maxCapabilityTaskKinds : Nat := 4096
def maxAgentVersionBytes : Nat := 128
def maxInstalledPlugins : Nat := 1024
def maxPluginIdBytes : Nat := 256
def maxPluginVersionBytes : Nat := 64

/-- Empty, or longer than so many bytes. -/
def outside (value : String) (maxBytes : Nat) : Bool :=
  value = "" || maxBytes < value.utf8ByteSize

/-- Neighbours are not in strict order: `windows(2).any(|pair| pair[0] >= pair[1])`. -/
def unsorted (values : List String) : Bool := anyPair (fun a b => decide (b ≤ a)) values

def validatePolicySnapshot (snapshot : Proto.AgentJobPolicySnapshot)
    (current : Option Proto.AgentJobPolicySnapshot) : Except String Unit :=
  if maxDeniedTaskKinds < snapshot.deniedTaskKinds.length then
    .error "Agent Job policy contains too many Task kinds"
  else if snapshot.deniedTaskKinds.any (outside · maxTaskKindBytes) then
    .error "Agent Job policy contains an invalid Task kind"
  else if unsorted snapshot.deniedTaskKinds then
    .error "Agent Job policy Task kinds must be sorted and unique"
  else
    match current with
    | none => .ok ()
    | some current =>
      if snapshot.revision < current.revision then
        .error "Agent Job policy revision cannot move backwards"
      else if snapshot.revision = current.revision ∧ snapshot ≠ current then
        .error "Agent Job policy content changed without a new revision"
      else .ok ()

/-- The numbers of `ProbeProtocol`, without the unspecified one. -/
def isProbeProtocol (value : Int) : Bool := decide (1 ≤ value ∧ value ≤ 4)

def validateCapabilitySnapshot (snapshot : Proto.AgentCapabilitySnapshot) : Except String Unit :=
  if snapshot.revision = 0 then .error "Agent capability revision must be greater than zero"
  else if outside snapshot.agentVersion maxAgentVersionBytes then
    .error "Agent capability contains an invalid Agent version"
  else if snapshot.taskKinds = [] ∨ maxCapabilityTaskKinds < snapshot.taskKinds.length then
    .error "Agent capability contains an invalid Task kind count"
  else if snapshot.taskKinds.any (outside · maxTaskKindBytes) || unsorted snapshot.taskKinds then
    .error "Agent capability Task kinds must be valid, sorted and unique"
  else if snapshot.probeProtocols = [] ∨
      anyPair (fun a b => decide (b ≤ a)) snapshot.probeProtocols = true ∨
      snapshot.probeProtocols.any (fun value => !isProbeProtocol value) = true then
    .error "Agent capability Probe protocols must be valid, sorted and unique"
  else .ok ()

def invalidPlugin (plugin : Proto.PluginInventoryEntry) : Bool :=
  outside plugin.pluginId maxPluginIdBytes || outside plugin.version maxPluginVersionBytes ||
    plugin.schemaHash.length ≠ 32 || plugin.schemaFormatVersion = 0 || plugin.taskKinds = [] ||
    plugin.taskKinds.any (outside · maxTaskKindBytes) || unsorted plugin.taskKinds

/-- `(id, version) >= (id, version)`, as texts. -/
def notBefore (a b : Proto.PluginInventoryEntry) : Bool :=
  decide (b.pluginId < a.pluginId) || (a.pluginId = b.pluginId && decide (b.version ≤ a.version))

def validatePluginInventory (snapshot : Proto.AgentPluginInventory) : Except String Unit :=
  if snapshot.revision = 0 ∨ maxInstalledPlugins < snapshot.plugins.length then
    .error "Agent plugin inventory has an invalid revision or plugin count"
  else if snapshot.plugins.any invalidPlugin then
    .error "Agent plugin inventory contains an invalid plugin entry"
  else if anyPair notBefore snapshot.plugins then
    .error "Agent plugin inventory entries must be sorted and unique"
  else .ok ()

/-- `valid_digest`. -/
def validDigest (bytes : List UInt8) : Bool := bytes = [] || bytes.length = 32

def validateReconcileSummary (summary : Proto.AgentReconcileSummary) : Except String Unit :=
  if summary.instanceId.length ≠ 16 then
    .error "Agent reconcile instance id must contain 16 bytes"
  else if !validDigest summary.catalogDigest || !validDigest summary.runtimeDigest then
    .error "Agent reconcile digest must be empty or 32 bytes"
  else if ¬ (summary.catalogRevision = 0 ↔ summary.catalogDigest = []) then
    .error "catalog reconcile revision and digest do not match"
  else if ¬ (summary.runtimeRevision = 0 ↔ summary.runtimeDigest = []) then
    .error "runtime reconcile revision and digest do not match"
  else .ok ()

end Smalux.Session
