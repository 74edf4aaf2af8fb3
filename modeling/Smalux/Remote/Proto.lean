/-
  Subject:   The messages the Server sends about Jobs, and the Agent's answers (job/*.proto).

  A `oneof` is an `Option` of an inductive type, since it may be unset on the wire; so is a missing
  sub-message. Enumerations that arrive as numbers stay numbers (`Int`, an `i32`) until they are
  checked. `bytes` are lists of bytes.

  The configuration of a built-in task is kept as its encoding: the controller compares it and
  hands it on, it does not look inside.
-/
import Smalux.Scheduler.Model

namespace Smalux.Proto

/-! ## 1. Times -/

structure Duration where
  seconds : Int
  nanos : Int
  deriving DecidableEq, Repr

structure Timestamp where
  seconds : Int
  nanos : Int
  deriving DecidableEq, Repr

/-! ## 2. Triggers (schedule.proto) -/

structure IntervalSchedule where
  every : Option Duration
  startAt : Option Timestamp
  deriving DecidableEq, Repr

structure CronSchedule where
  expression : String
  timezone : String
  deriving DecidableEq, Repr

inductive Schedule where
  | once (at_ : Option Timestamp)
  | interval (interval : IntervalSchedule)
  | cron (cron : CronSchedule)
  deriving DecidableEq, Repr

structure MisfirePolicy where
  behavior : Int
  maxRuns : Nat
  deriving DecidableEq, Repr

structure JobTrigger where
  timeout : Option Duration
  misfire : Option MisfirePolicy
  schedule : Option Schedule
  deriving DecidableEq, Repr

/-! ## 3. Options (definition.proto) -/

structure RetryCondition where
  transientError : Bool
  timeout : Bool
  panic : Bool
  deriving DecidableEq, Repr

structure ExponentialRetry where
  maxAttempts : Nat
  initialDelay : Option Duration
  maxDelay : Option Duration
  retryOn : Option RetryCondition
  deriving DecidableEq, Repr

inductive RetryPolicy where
  | noRetry
  | exponential (retry : ExponentialRetry)
  deriving DecidableEq, Repr

structure FailurePolicy where
  disableAfterConsecutiveFailures : Option Nat
  countTimeout : Bool
  countPanic : Bool
  deriving DecidableEq, Repr

structure JobOptions where
  concurrency : Option Nat := none
  maxPending : Option Nat := none
  priority : Option Nat := none
  coalescing : Int := 0
  capacity : Int := 0
  /-- present or not, and the policy inside it set or not -/
  retry : Option (Option RetryPolicy) := none
  failure : Option FailurePolicy := none
  deriving DecidableEq, Repr

/-! ## 4. Tasks -/

/-- The tasks the Agent is built with. -/
inductive BuiltinTask where
  | system | cpu | memory | load | host | diskIo | networkIo | localIp | publicIp | process
  | socket | probe
  deriving DecidableEq, Repr

structure PluginTaskConfig where
  pluginId : String
  pluginVersion : String
  taskKind : String
  schemaVersion : Nat
  taskConfig : List UInt8
  deriving DecidableEq, Repr

inductive Task where
  | builtin (task : BuiltinTask) (config : List UInt8)
  | plugin (config : PluginTaskConfig)
  deriving DecidableEq, Repr

/-- The inner `Option` is the `oneof`. -/
structure TaskDefinition where
  task : Option Task
  deriving DecidableEq, Repr

structure JobDefinition where
  jobId : List UInt8
  revision : Nat
  enabled : Bool
  trigger : Option JobTrigger
  options : Option JobOptions
  task : Option TaskDefinition
  deriving DecidableEq, Repr

/-! ## 5. Commands and results (command.proto, status.proto) -/

structure UpsertJob where
  catalogRevision : Nat
  job : Option JobDefinition
  deriving DecidableEq, Repr

structure DeleteJob where
  catalogRevision : Nat
  jobId : List UInt8
  expectedRevision : Nat
  deriving DecidableEq, Repr

structure RunJobNow where
  jobId : List UInt8
  expectedRevision : Nat
  deriving DecidableEq, Repr

structure ReplaceAllJobs where
  catalogRevision : Nat
  jobs : List JobDefinition
  deriving DecidableEq, Repr

inductive Action where
  | replaceAll (command : ReplaceAllJobs)
  | upsert (command : UpsertJob)
  | delete (command : DeleteJob)
  | runNow (command : RunJobNow)
  deriving DecidableEq, Repr

structure JobCommand where
  commandId : List UInt8
  action : Option Action
  deriving DecidableEq, Repr

inductive JobCommandStatus where
  | applied
  | rejected
  | resyncRequired
  deriving DecidableEq, Repr

inductive JobCommandErrorCode where
  | invalidCommand
  | invalidJob
  | notFound
  | revisionConflict
  | ownershipConflict
  | capacityExceeded
  | schedulerUnavailable
  | localPolicyDenied
  deriving DecidableEq, Repr

inductive JobRuntimeState where
  | enabled
  | completed
  | disabled
  deriving DecidableEq, Repr

structure JobStatus where
  jobId : List UInt8
  revision : Nat
  taskKind : String
  state : JobRuntimeState
  disabledReason : String
  concurrency : Nat
  maxPending : Nat
  runningCount : Nat
  pendingCount : Nat
  consecutiveFailures : Nat
  nextRunAt : Option Timestamp
  lastStartedAt : Option Timestamp
  lastFinishedAt : Option Timestamp
  lastOutcome : String
  createdAt : Timestamp
  updatedAt : Timestamp
  deriving DecidableEq, Repr

structure JobCommandError where
  code : JobCommandErrorCode
  message : String
  deriving DecidableEq, Repr

structure JobCommandResult where
  commandId : List UInt8
  status : JobCommandStatus
  catalogRevision : Nat
  job : Option JobStatus
  error : Option JobCommandError
  deriving DecidableEq, Repr

end Smalux.Proto
