/-
  Subject:   From a Job definition on the wire to what the scheduler accepts (compiler.rs).

  The checks stand in the source's order, with the source's messages. Three things are not the
  controller's own and are asked of `TaskFactory`: whether a time zone is known, whether the
  configuration of a built-in task is accepted, and whether a plugin's is.
-/
import Smalux.Remote.Proto
import Smalux.Scheduler.Timing

namespace Smalux.Remote

open Scheduler

/-! ## 1. Identifiers, durations, timestamps -/

/-- The number 16 bytes spell. -/
def uuidOfBytes (bytes : List UInt8) : Uuid := bytes.foldl (fun n b => n * 256 + b.toNat) 0

def parseUuid (bytes : List UInt8) (field : String) : Except String Uuid :=
  if bytes.length = 16 then .ok (uuidOfBytes bytes)
  else .error (field ++ " must contain a 16-byte UUID")

def required {α : Type} (value : Option α) (field : String) : Except String α :=
  match value with
  | some value => .ok value
  | none => .error (field ++ " is required")

def duration (value : Option Proto.Duration) (field : String) (allowZero : Bool) :
    Except String Duration := do
  let value ← required value field
  if ¬ (0 ≤ value.seconds ∧ 0 ≤ value.nanos ∧ value.nanos < 10 ^ 9) then
    throw (field ++ " is invalid")
  let value := value.seconds.toNat * 10 ^ 9 + value.nanos.toNat
  if ¬ (allowZero ∨ value ≠ 0) then throw (field ++ " must be greater than zero")
  return value

/-- `DateTime::from_timestamp`. A second may have a leap part only if it ends a minute; a negative
    part is a huge one once it is read as unsigned. -/
def fromTimestamp (seconds nanos : Int) : Option DateTime :=
  if DateTime.inRange (seconds * 10 ^ 9) ∧ 0 ≤ nanos ∧
      (nanos < 10 ^ 9 ∨ nanos < 2 * 10 ^ 9 ∧ seconds % 60 = 59) then
    some (seconds * 10 ^ 9 + nanos)
  else none

def timestamp (value : Option Proto.Timestamp) (field : String) : Except String DateTime := do
  let value ← required value field
  match fromTimestamp value.seconds value.nanos with
  | some at_ => return at_
  | none => throw (field ++ " is outside the supported timestamp range")

/-- `Option::map(..).transpose()`. -/
def optional {α β : Type} (f : α → Except String β) : Option α → Except String (Option β)
  | none => .ok none
  | some value => (f value).map some

/-- `NonZero::new`. -/
def nonZero (n : Nat) (message : String) : Except String ℕ+ :=
  if h : 0 < n then .ok ⟨n, h⟩ else .error message

/-! ## 2. The task factory -/

/-- What the factory asks of the rest of the Agent. The plugin part is the state of the current
    session's Worker manager. -/
structure TaskFactory where
  parseTimezone : String → Except String Tz
  /-- `with_config` of the built-in tasks that can refuse one -/
  checkConfig : Proto.BuiltinTask → List UInt8 → Except String Unit
  validateTaskConfig : Proto.PluginTaskConfig → Except String Unit

/-- The stable name of a built-in task. -/
def builtinKind : Proto.BuiltinTask → String
  | .system => "smalux.collect.system.v1"
  | .cpu => "smalux.collect.cpu.v1"
  | .memory => "smalux.collect.memory.v1"
  | .load => "smalux.collect.load.v1"
  | .host => "smalux.collect.host.v1"
  | .diskIo => "smalux.collect.disk_io.v1"
  | .networkIo => "smalux.collect.network_io.v1"
  | .localIp => "smalux.collect.local_ip.v1"
  | .publicIp => "smalux.collect.public_ip.v1"
  | .process => "smalux.collect.process.v1"
  | .socket => "smalux.collect.socket.v1"
  | .probe => "smalux.probe.network.v1"

/-- Only the two tasks that wait for the network can be cancelled. -/
def builtinCancellationMode : Proto.BuiltinTask → TaskCancellationMode
  | .publicIp | .probe => .cooperative
  | _ => .nonCancellable

/-- The built-in tasks that check their configuration. -/
def checksConfig : Proto.BuiltinTask → Bool
  | .publicIp | .process | .socket | .probe => true
  | _ => false

/-- `task_kind` (capability.rs); a plugin task without a kind has none. -/
def taskKind (definition : Proto.TaskDefinition) : Option String :=
  match definition.task with
  | none => none
  | some (.builtin task _) => some (builtinKind task)
  | some (.plugin config) => if config.taskKind = "" then none else some config.taskKind

/-- Bytes as text, one character a byte. -/
def bytesText (bytes : List UInt8) : String :=
  String.ofList (bytes.map fun b => Char.ofNat b.toNat)

namespace TaskFactory

variable (factory : TaskFactory)

/-- `TaskBinding::reporting`: every remote task reports under the revision it was built for. -/
def bind (kind : String) (mode : TaskCancellationMode) (body : String) (jobRevision : Nat) :
    TaskBinding :=
  ⟨⟨kind, .reporting jobRevision, body⟩, mode⟩

def build (definition : Proto.TaskDefinition) (jobRevision : Nat) : Except String TaskBinding := do
  match ← required definition.task "task definition" with
  | .builtin task config =>
    if checksConfig task then factory.checkConfig task config
    return bind (builtinKind task) (builtinCancellationMode task) (bytesText config) jobRevision
  | .plugin config =>
    if config.pluginId = "" then throw "plugin_id is required"
    if config.pluginVersion = "" then throw "plugin_version is required"
    if config.taskKind = "" then throw "plugin task_kind is required"
    factory.validateTaskConfig config
    return bind config.taskKind .cooperative
      (config.pluginId ++ "@" ++ config.pluginVersion ++ "/" ++ toString config.schemaVersion ++
        ":" ++ bytesText config.taskConfig)
      jobRevision

end TaskFactory

/-! ## 3. Triggers and options -/

section Compile

variable (factory : TaskFactory)

def compileSchedule : Proto.Schedule → Except String Schedule
  | .once at_ => do return .once (← timestamp at_ "once.at")
  | .interval interval => do
    let every ← duration interval.every "interval.every" false
    let startAt ← optional (fun at_ => timestamp (some at_) "interval.start_at") interval.startAt
    return .interval every startAt
  | .cron cron => do return .cron cron.expression (← factory.parseTimezone cron.timezone)

def compileMisfire (misfire : Proto.MisfirePolicy) : Except String MisfirePolicy :=
  match misfire.behavior with
  | 0 => .error "misfire behavior is unspecified"
  | 1 => .ok .skip
  | 2 => .ok .fireOnce
  | 3 =>
    (nonZero misfire.maxRuns "catch-up max_runs must be greater than zero").map .catchUp
  | _ => .error "misfire behavior is unknown"

def compileTrigger (value : Proto.JobTrigger) : Except String Trigger := do
  let schedule ← compileSchedule factory (← required value.schedule "job schedule")
  let misfire ← compileMisfire (← required value.misfire "misfire policy")
  let timeout ← optional (fun d => duration (some d) "trigger.timeout" false) value.timeout
  return ⟨schedule, misfire, timeout⟩

def unknownEnum (value : Int) : String := "unknown enumeration value " ++ toString value

def compilePriority (priority : Nat) : Except String JobPriority :=
  if 255 < priority then .error "out of range integral type conversion attempted"
  else if h : priority ≤ 10 then .ok ⟨priority, h⟩
  else .error (SchedulerError.invalidPriority priority).text

def compileCoalescing (value : Int) : Except String (Option TriggerCoalescing) :=
  match value with
  | 0 => .ok none
  | 1 => .ok (some .keepAll)
  | 2 => .ok (some .keepLatest)
  | value => .error (unknownEnum value)

def compileCapacity (value : Int) : Except String (Option CapacityPolicy) :=
  match value with
  | 0 => .ok none
  | 1 => .ok (some .backpressure)
  | 2 => .ok (some .skipNewest)
  | 3 => .ok (some .replaceOldestTrigger)
  | value => .error (unknownEnum value)

def compileRetry : Option Proto.RetryPolicy → Except String ExecutionRetryPolicy
  | some .noRetry => .ok .none
  | some (.exponential value) => do
    let maxAttempts ← nonZero value.maxAttempts "retry max_attempts must be greater than zero"
    let initialDelay ← duration value.initialDelay "retry.initial_delay" true
    let maxDelay ← duration value.maxDelay "retry.max_delay" false
    return .exponential maxAttempts initialDelay maxDelay
      ((value.retryOn.map fun on => ⟨on.transientError, on.timeout, on.panic⟩).getD {})
  | none => .error "retry policy is required when retry is present"

def compileFailure (failure : Proto.FailurePolicy) : Except String FailurePolicy := do
  let threshold ← optional (nonZero · "failure threshold must be greater than zero")
    failure.disableAfterConsecutiveFailures
  return ⟨threshold, failure.countTimeout, failure.countPanic⟩

/-- The defaults, where the definition says nothing. -/
def compileOptions : Option Proto.JobOptions → Except String JobOptions
  | none => .ok {}
  | some value => do
    let concurrency ← optional (nonZero · "job concurrency must be greater than zero")
      value.concurrency
    let priority ← optional compilePriority value.priority
    let coalescing ← compileCoalescing value.coalescing
    let capacity ← compileCapacity value.capacity
    let retry ← optional compileRetry value.retry
    let failure ← optional compileFailure value.failure
    let defaults : JobOptions := {}
    return {
      concurrency := concurrency
      maxPending := value.maxPending
      priority := priority.getD defaults.priority
      coalescing := coalescing
      capacity := capacity
      retry := retry.getD defaults.retry
      failure := failure.getD defaults.failure }

/-! ## 4. Definitions -/

/-- A definition that can be installed. -/
structure CompiledJob where
  definition : Proto.JobDefinition
  id : JobId
  revision : Nat
  enabled : Bool
  trigger : Trigger
  options : JobOptions
  task : TaskBinding
  taskKind : String
  plugin : Option (String × String)
  deriving DecidableEq, Repr

/-- The plugin a task belongs to. -/
def taskPlugin (definition : Proto.TaskDefinition) : Option (String × String) :=
  match definition.task with
  | some (.plugin config) => some (config.pluginId, config.pluginVersion)
  | _ => none

def compileJob (definition : Proto.JobDefinition) : Except String CompiledJob := do
  let id ← parseUuid definition.jobId "job_id"
  if ¬ 0 < definition.revision then throw "job revision must be greater than zero"
  let trigger ← compileTrigger factory (← required definition.trigger "job trigger")
  let options ← compileOptions definition.options
  let task ← required definition.task "job task"
  let kind ← required (taskKind task) "task definition"
  let binding ← factory.build task definition.revision
  return {
    definition := definition
    id := id
    revision := definition.revision
    enabled := definition.enabled
    trigger := trigger
    options := options
    task := binding
    taskKind := kind
    plugin := taskPlugin task }

end Compile

end Smalux.Remote
