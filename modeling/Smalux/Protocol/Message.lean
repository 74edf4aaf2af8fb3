/-
  Subject:   The messages of a session (transport.proto, session_control.proto, policy.rs).

  Payloads of business messages are opaque to the session: they are values of a type `β`.
-/
import Mathlib.Algebra.Order.Group.Nat
import Mathlib.Data.List.Basic

namespace Smalux.Protocol

/-- The body of a `SessionControl`. -/
inductive Control where
  | ping (nonce sentAtUnixMicros : Nat)
  | pong (nonce echoedSentAt responderReceivedAt responderSentAt : Nat)
  | rekeyRequired (nextGeneration : Nat)
  | rekeyRequest (generation : Nat)
  | rekeyAck (generation : Nat)
  deriving DecidableEq, Repr

/-- The bodies of a `SecureMessage` that are events for the business code. -/
inductive Business where
  | registrationMessage
  | diagnostic
  | keyRotation
  | jobCommand
  | jobCommandResult
  | taskReport
  | agentJobPolicy
  | agentCapability
  | agentPlugin
  | jobEvent
  | reconcileSummary
  deriving DecidableEq, Repr

inductive Body (β : Type) where
  | business (kind : Business) (payload : β)
  | error (code : Int) (message : String)
  | sessionControl (body : Option Control)
  deriving DecidableEq, Repr

structure SecureMessage (β : Type) where
  body : Option (Body β)
  deriving DecidableEq, Repr

/-- Messages the session handles itself; every other goes to its user. -/
def SecureMessage.isControl {β : Type} : SecureMessage β → Bool
  | ⟨some (.sessionControl _)⟩ => true
  | _ => false

def control {β : Type} (body : Control) : SecureMessage β := ⟨some (.sessionControl (some body))⟩

/-- What the user of a session can send. -/
abbrev UserMessage (β : Type) := { message : SecureMessage β // message.isControl = false }

inductive SnowError where
  | input
  | decrypt
  deriving DecidableEq, Repr

/-- The `NoiseError`s of a session. -/
inductive NoiseError where
  | invalidFrame
  | crypto (error : SnowError)
  | encode
  | messageTooLarge
  deriving DecidableEq, Repr

inductive TransportError where
  | noise (error : NoiseError)
  | protocol (message : String)
  | closed
  | timeout (waiting : String)
  | heartbeatTimeout
  | rekeyRequired
  | remoteSecure (code : Int) (message : String)
  deriving DecidableEq, Repr

/-- An event for the business code. -/
structure SessionEvent (β : Type) where
  kind : Business
  payload : β
  deriving DecidableEq, Repr

/-- `SecureErrorCode::try_from`: a code the enumeration does not have is `Unspecified`. -/
def secureErrorCode (code : Int) : Int := if 0 ≤ code ∧ code ≤ 10 then code else 0

def SessionEvent.tryFrom {β : Type} : SecureMessage β → Except TransportError (SessionEvent β)
  | ⟨some (.business kind payload)⟩ => .ok ⟨kind, payload⟩
  | ⟨some (.error code message)⟩ => .error (.remoteSecure (secureErrorCode code) message)
  | ⟨some (.sessionControl _)⟩ =>
    .error (.protocol "session control escaped the transport state machine")
  | ⟨none⟩ => .error (.protocol "SecureMessage body is required")

end Smalux.Protocol
