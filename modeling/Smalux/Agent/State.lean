/-
  Subject:   The Agent's persisted identity (client/state/model.rs) and its stored form
             (client/state/file_store.rs).

  The pinned Server keys are a checked value here, as every state the code builds has them.

  * **`PersistedAgentState.ofDocument_document`** -- what is stored is read back.
-/
import Smalux.Rotation.Keys

namespace Smalux.Agent

open Rotation

inductive RegistrationStage where
  | identityPrepared
  | registrationPending
  | registered
  deriving DecidableEq, Repr

/-- What the last two stages share. -/
structure Registration where
  agentId : String
  identity : NoiseIdentity
  serverKeys : PinnedServerKeys
  registrationId : FixedBytes 16
  deriving DecidableEq

inductive PersistedAgentState where
  | identityPrepared (identity : NoiseIdentity)
  | registrationPending (registration : Registration)
  | registered (registration : Registration)
  deriving DecidableEq

namespace PersistedAgentState

def stage : PersistedAgentState → RegistrationStage
  | .identityPrepared _ => .identityPrepared
  | .registrationPending _ => .registrationPending
  | .registered _ => .registered

def identity : PersistedAgentState → NoiseIdentity
  | .identityPrepared identity => identity
  | .registrationPending registration | .registered registration => registration.identity

/-- The Agent id, the Server keys and the registration id, once there are any. -/
def registration : PersistedAgentState → Option Registration
  | .identityPrepared _ => none
  | .registrationPending registration | .registered registration => some registration

/-- `registration_pending`: the Server's key is pinned. -/
def pendingOf (agentId : String) (identity : NoiseIdentity) (serverPublicKey : NoisePublicKey)
    (registrationId : FixedBytes 16) : PersistedAgentState :=
  .registrationPending ⟨agentId, identity, .new serverPublicKey, registrationId⟩

/-- `registered_from_pending`. -/
def registeredFromPending : PersistedAgentState → Except String PersistedAgentState
  | .registrationPending registration => .ok (.registered registration)
  | .identityPrepared _ | .registered _ =>
    .error "only a pending Agent state can be marked registered"

/-- `server_key_candidates`. -/
def serverKeyCandidates (state : PersistedAgentState) : List NoisePublicKey :=
  match state.registration with
  | none => []
  | some registration => registration.serverKeys.connectionCandidates

end PersistedAgentState

/-! ## The stored form -/

structure StoredRegistration where
  agentId : String
  privateKey : List UInt8
  publicKey : List UInt8
  serverPublicKeys : List (List UInt8)
  serverPendingPublicKey : Option (List UInt8)
  serverPreviousPublicKey : Option (List UInt8)
  serverRotationId : Option (List UInt8)
  registrationId : List UInt8
  deriving DecidableEq, Repr

inductive StoredAgentState where
  | identityPrepared (privateKey publicKey : List UInt8)
  | registrationPending (stored : StoredRegistration)
  | registered (stored : StoredRegistration)
  deriving DecidableEq, Repr

def stateFormatVersion : Nat := 1

structure StateDocument where
  version : Nat
  state : StoredAgentState
  deriving DecidableEq, Repr

inductive LoadError where
  | noise (error : NoiseError)
  | message (text : String)
  /-- the bytes are no such document -/
  | json
  deriving DecidableEq, Repr

def noiseError {α : Type} : Except NoiseError α → Except LoadError α :=
  Except.mapError .noise

/-- An optional field, read if it is there. -/
def optionalKey {α : Type} (read : List UInt8 → Except NoiseError α) :
    Option (List UInt8) → Except LoadError (Option α)
  | none => .ok none
  | some bytes => (noiseError (read bytes)).map some

namespace Registration

/-- `StoredAgentState::from`. -/
def stored (r : Registration) : StoredRegistration where
  agentId := r.agentId
  privateKey := r.identity.privateKey.bytes
  publicKey := r.identity.publicKey.bytes
  serverPublicKeys := [r.serverKeys.state.current.bytes]
  serverPendingPublicKey := r.serverKeys.state.pending.map (·.bytes)
  serverPreviousPublicKey := r.serverKeys.state.previous.map (·.bytes)
  serverRotationId := r.serverKeys.state.rotationId.map (·.bytes)
  registrationId := r.registrationId.bytes

/-- The closure `server_keys` of `try_from`: a second key in the list is an older format's previous
    key. -/
def readServerKeys (values : List (List UInt8))
    (pending previous rotationId : Option (List UInt8)) : Except LoadError PinnedServerKeys := do
  let first ← match values.head? with
    | none => .error (.message "registered Agent state must contain a Server public key")
    | some first => .ok first
  let current ← noiseError (NoisePublicKey.fromBytes first)
  if 2 < values.length then .error (.message "Agent state contains too many Server public keys")
  else
    let pending ← optionalKey NoisePublicKey.fromBytes pending
    let previous ← optionalKey NoisePublicKey.fromBytes (previous <|> values[1]?)
    let rotationId ← optionalKey RotationId.fromBytes rotationId
    noiseError (PinnedServerKeys.fromSnapshot ⟨current, pending, previous, rotationId⟩)

def readRegistrationId (value : List UInt8) : Except LoadError (FixedBytes 16) :=
  if h : value.length = 16 then .ok ⟨value, h⟩
  else .error (.message "registration ID must contain 16 bytes")

/-- `PersistedAgentState::try_from`, for the last two stages. -/
def tryFrom (s : StoredRegistration) : Except LoadError Registration := do
  let identity ← noiseError (NoiseIdentity.fromParts s.privateKey s.publicKey)
  let serverKeys ← readServerKeys s.serverPublicKeys s.serverPendingPublicKey
    s.serverPreviousPublicKey s.serverRotationId
  let registrationId ← readRegistrationId s.registrationId
  return ⟨s.agentId, identity, serverKeys, registrationId⟩

end Registration

namespace PersistedAgentState

def stored : PersistedAgentState → StoredAgentState
  | .identityPrepared identity => .identityPrepared identity.privateKey.bytes identity.publicKey.bytes
  | .registrationPending registration => .registrationPending registration.stored
  | .registered registration => .registered registration.stored

def tryFrom : StoredAgentState → Except LoadError PersistedAgentState
  | .identityPrepared privateKey publicKey =>
    (noiseError (NoiseIdentity.fromParts privateKey publicKey)).map .identityPrepared
  | .registrationPending stored => (Registration.tryFrom stored).map .registrationPending
  | .registered stored => (Registration.tryFrom stored).map .registered

def document (state : PersistedAgentState) : StateDocument := ⟨stateFormatVersion, state.stored⟩

/-- The version check of `load`, and the conversion. -/
def ofDocument (document : StateDocument) : Except LoadError PersistedAgentState :=
  if document.version ≠ stateFormatVersion then
    .error (.message ("unsupported Agent state version " ++ toString document.version))
  else tryFrom document.state

end PersistedAgentState

/-! ## What is stored is read back -/

theorem fromParts_bytes (identity : NoiseIdentity) :
    NoiseIdentity.fromParts identity.privateKey.bytes identity.publicKey.bytes = .ok identity := by
  simp [NoiseIdentity.fromParts, NoisePublicKey.fromBytes, bind, Except.bind, pure, Except.pure]

theorem optionalKey_bytes {n : Nat} (error : NoiseError) (key : Option (FixedBytes n)) :
    optionalKey (FixedBytes.fromBytes error) (key.map (·.bytes)) = .ok key := by
  cases key with
  | none => rfl
  | some => simp [optionalKey, noiseError, Except.mapError, Except.map]

theorem Registration.readServerKeys_stored (keys : PinnedServerKeys) :
    Registration.readServerKeys [keys.state.current.bytes] (keys.state.pending.map (·.bytes))
      (keys.state.previous.map (·.bytes)) (keys.state.rotationId.map (·.bytes)) = .ok keys := by
  have hprevious : (keys.state.previous.map (·.bytes) <|> ([keys.state.current.bytes] : List _)[1]?) =
      keys.state.previous.map (·.bytes) := by
    cases keys.state.previous <;> rfl
  have hsnapshot : PinnedServerKeys.fromSnapshot keys.state = .ok keys :=
    PinnedServerKeys.fromSnapshot_snapshot keys
  simp only [Registration.readServerKeys, hprevious]
  simp [NoisePublicKey.fromBytes, RotationId.fromBytes, optionalKey_bytes, noiseError,
    Except.mapError, bind, Except.bind, hsnapshot]

theorem Registration.tryFrom_stored (r : Registration) : Registration.tryFrom r.stored = .ok r := by
  have hid : Registration.readRegistrationId r.registrationId.bytes = .ok r.registrationId :=
    dif_pos r.registrationId.length_eq
  simp [Registration.tryFrom, Registration.stored, fromParts_bytes, readServerKeys_stored, hid,
    noiseError, Except.mapError, bind, Except.bind, pure, Except.pure]

/-- **What is stored is read back**, in every stage. -/
theorem PersistedAgentState.ofDocument_document (state : PersistedAgentState) :
    PersistedAgentState.ofDocument state.document = .ok state := by
  rw [ofDocument, document, if_neg (by simp)]
  cases state with
  | identityPrepared =>
    simp [stored, tryFrom, fromParts_bytes, noiseError, Except.mapError, Except.map]
  | registrationPending | registered =>
    simp [stored, tryFrom, Registration.tryFrom_stored, Except.map]

end Smalux.Agent
