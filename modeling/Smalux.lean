import Smalux.Scheduler.DispatchOrder
import Smalux.Scheduler.Deadline
import Smalux.Scheduler.Cancellation
import Smalux.Scheduler.Fencing
import Smalux.Scheduler.Misfire
import Smalux.Scheduler.Backpressure
import Smalux.Scheduler.Replacement
import Smalux.Scheduler.Lossless
import Smalux.Scheduler.Limits
import Smalux.Remote.RetryTime
import Smalux.Remote.Snapshot
import Smalux.Remote.Digest
import Smalux.Remote.Repetition
import Smalux.Remote.OfflineExpiry
import Smalux.Rotation.Exchange
import Smalux.Agent.StateStore
import Smalux.Agent.Outbox
import Smalux.Remote.PolicyFile
import Smalux.Server.KeyRingManager
import Smalux.Server.TokenRevocation
import Smalux.Server.AgentRevocation
import Smalux.Server.Revisions
import Smalux.Server.RuntimeRead
import Smalux.Server.JobEvents
import Smalux.Server.Delivery
import Smalux.Enrollment.Recovery
import Smalux.Protocol.CancelSafety
import Smalux.Protocol.Delivery
import Smalux.Session.Inventory
import Smalux.Session.Skips
import Smalux.Session.Admissible
import Smalux.Session.Gate
import Smalux.Session.Readiness
import Smalux.Session.Reconnect
