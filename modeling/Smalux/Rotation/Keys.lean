/-
  Subject:   Static keys and their rotation (noise/identity.rs, noise/rotation.rs).

  The Server's key ring and the Agent's pinned Server keys carry the check of `from_snapshot` as a
  field: a ring with a next key and no rotation id cannot be built. What the operating system's
  random source draws is an input; `Blake2s256` is a parameter (`digest`).

  * `stage_cases` -- everything `stage` can do.
-/
import Mathlib.Data.List.Basic

namespace Smalux.Rotation

variable {rotationId : RotationId} {pinned' : PinnedServerKeys} {a : ServerKeyAnnouncement}

/-! ## 1. Keys and identifiers -/

def keyLen : Nat := 32

def rotationIdLen : Nat := 16

inductive NoiseError where
  | invalidKeyLength
  | authenticationFailed
  | unknownKeyId
  | rotationAlreadyInProgress
  | noPendingRotation
  | rotationIdMismatch
  | random
  deriving DecidableEq, Repr

/-- A byte string of a fixed length. -/
structure FixedBytes (n : Nat) where
  bytes : List UInt8
  length_eq : bytes.length = n
  deriving DecidableEq

namespace FixedBytes

variable {n : Nat}

/-- `try_into` with the error of the type that is read. -/
def fromBytes (error : NoiseError) (bytes : List UInt8) : Except NoiseError (FixedBytes n) :=
  if h : bytes.length = n then .ok ⟨bytes, h⟩ else .error error

@[simp] theorem fromBytes_bytes (error : NoiseError) (value : FixedBytes n) :
    fromBytes error value.bytes = .ok value := dif_pos value.length_eq

/-- The same byte `n` times. -/
def replicate (n : Nat) (byte : UInt8) : FixedBytes n := ⟨List.replicate n byte, List.length_replicate⟩

end FixedBytes

abbrev NoisePublicKey := FixedBytes keyLen

abbrev KeyId := FixedBytes keyLen

abbrev RotationId := FixedBytes rotationIdLen

def NoisePublicKey.fromBytes : List UInt8 → Except NoiseError NoisePublicKey :=
  FixedBytes.fromBytes .invalidKeyLength

def KeyId.fromBytes : List UInt8 → Except NoiseError KeyId :=
  FixedBytes.fromBytes .invalidKeyLength

def RotationId.fromBytes : List UInt8 → Except NoiseError RotationId :=
  FixedBytes.fromBytes .rotationIdMismatch

structure NoiseIdentity where
  privateKey : FixedBytes keyLen
  publicKey : NoisePublicKey
  deriving DecidableEq

/-- Both keys of one repeated byte. -/
def identityOf (byte : UInt8) : NoiseIdentity := ⟨.replicate _ byte, .replicate _ byte⟩

/-- `NoiseIdentity::from_parts`: the lengths are checked, not that the keys are a pair. -/
def NoiseIdentity.fromParts (privateKey publicKey : List UInt8) :
    Except NoiseError NoiseIdentity := do
  let privateKey ← FixedBytes.fromBytes .invalidKeyLength privateKey
  let publicKey ← NoisePublicKey.fromBytes publicKey
  return ⟨privateKey, publicKey⟩

structure ServerKeyAnnouncement where
  rotationId : List UInt8
  newPublicKey : List UInt8
  newKeyId : List UInt8
  deriving DecidableEq, Repr

section Digest

variable (digest : NoisePublicKey → KeyId)

/-! ## 2. The Server's key ring -/

structure ServerKeyRingSnapshot where
  current : NoiseIdentity
  next : Option NoiseIdentity
  previous : Option NoiseIdentity
  rotationId : Option RotationId
  deriving DecidableEq

structure ServerKeyRing where
  state : ServerKeyRingSnapshot
  paired : state.next.isSome = state.rotationId.isSome
  deriving DecidableEq

namespace ServerKeyRing

variable {ring ring' : ServerKeyRing}

def new (current : NoiseIdentity) : ServerKeyRing := ⟨⟨current, none, none, none⟩, rfl⟩

def fromSnapshot (snapshot : ServerKeyRingSnapshot) : Except NoiseError ServerKeyRing :=
  if h : snapshot.next.isSome = snapshot.rotationId.isSome then .ok ⟨snapshot, h⟩
  else .error .noPendingRotation

def snapshot (ring : ServerKeyRing) : ServerKeyRingSnapshot := ring.state

/-- `prepare_rotation`; `drawn` is what the random source gives for the identity and the id. -/
def prepareRotation (ring : ServerKeyRing) (drawn : Except NoiseError (NoiseIdentity × RotationId)) :
    Except NoiseError ServerKeyRing :=
  if ring.state.next.isSome ∨ ring.state.previous.isSome then .error .rotationAlreadyInProgress
  else
    match drawn with
    | .error e => .error e
    | .ok (next, rotationId) =>
      .ok ⟨{ ring.state with next := some next, rotationId := some rotationId }, rfl⟩

/-- The announcement of the next key. -/
def announcement (ring : ServerKeyRing) : Option ServerKeyAnnouncement :=
  match ring.state.next, ring.state.rotationId with
  | some next, some rotationId =>
    some ⟨rotationId.bytes, next.publicKey.bytes, (digest next.publicKey).bytes⟩
  | _, _ => none

/-- Current, next, previous. -/
def activeKeys (ring : ServerKeyRing) : List NoiseIdentity :=
  ring.state.current :: (ring.state.next.toList ++ ring.state.previous.toList)

def findActive (ring : ServerKeyRing) (keyId : KeyId) : Option NoiseIdentity :=
  ring.activeKeys.find? fun identity => decide (digest identity.publicKey = keyId)

def promoteNext (ring : ServerKeyRing) (rotationId : RotationId) :
    Except NoiseError ServerKeyRing :=
  if ring.state.rotationId ≠ some rotationId then .error .rotationIdMismatch
  else
    match ring.state.next with
    | none => .error .noPendingRotation
    | some next =>
      .ok ⟨⟨next, none, some ring.state.current, none⟩, rfl⟩

def retirePrevious (ring : ServerKeyRing) : Except NoiseError ServerKeyRing :=
  if ring.state.previous.isNone then .error .noPendingRotation
  else .ok ⟨{ ring.state with previous := none }, ring.paired⟩

def cancelRotation (ring : ServerKeyRing) : Except NoiseError ServerKeyRing :=
  if ring.state.next.isNone then .error .noPendingRotation
  else .ok ⟨{ ring.state with next := none, rotationId := none }, rfl⟩

theorem prepareRotation_ok {drawn : Except NoiseError (NoiseIdentity × RotationId)}
    (h : ring.prepareRotation drawn = .ok ring') :
    ring.state.next = none ∧ ring.state.previous = none ∧ ∃ next rotationId,
      drawn = .ok (next, rotationId) ∧
        ring'.state = { ring.state with next := some next, rotationId := some rotationId } := by
  unfold prepareRotation at h
  split at h
  · cases h
  · rename_i hidle
    simp only [not_or, Bool.not_eq_true, Option.isSome_eq_false_iff, Option.isNone_iff_eq_none]
      at hidle
    split at h
    · cases h
    · cases h
      exact ⟨hidle.1, hidle.2, _, _, rfl, rfl⟩

theorem promoteNext_ok (h : ring.promoteNext rotationId = .ok ring') :
    ∃ next, ring.state.next = some next ∧
      ring'.state = ⟨next, none, some ring.state.current, none⟩ := by
  unfold promoteNext at h
  split at h
  · cases h
  · split at h
    · cases h
    · rename_i next hnext
      cases h
      exact ⟨next, hnext, rfl⟩

theorem retirePrevious_ok (h : ring.retirePrevious = .ok ring') :
    ring'.state = { ring.state with previous := none } := by
  unfold retirePrevious at h
  split at h
  · cases h
  · cases h
    rfl

theorem cancelRotation_ok (h : ring.cancelRotation = .ok ring') :
    ring'.state = { ring.state with next := none, rotationId := none } := by
  unfold cancelRotation at h
  split at h
  · cases h
  · cases h
    rfl

theorem announcement_of_state (hnext : ring'.state.next = ring.state.next)
    (hid : ring'.state.rotationId = ring.state.rotationId) :
    ring'.announcement digest = ring.announcement digest := by
  simp only [announcement, hnext, hid]

/-- Whether an IK handshake for `key` succeeds: the Server answers with the first active identity
    of that key id, and the handshake is bound to `key`. -/
def accepts (ring : ServerKeyRing) (key : NoisePublicKey) : Bool :=
  match ring.findActive digest (digest key) with
  | some identity => decide (identity.publicKey = key)
  | none => false

end ServerKeyRing

/-! ## 3. The keys the Agent has pinned -/

structure PinnedServerKeysSnapshot where
  current : NoisePublicKey
  pending : Option NoisePublicKey
  previous : Option NoisePublicKey
  rotationId : Option RotationId
  deriving DecidableEq

structure PinnedServerKeys where
  state : PinnedServerKeysSnapshot
  paired : state.pending.isSome = state.rotationId.isSome
  deriving DecidableEq

namespace PinnedServerKeys

variable {pinned : PinnedServerKeys} {key : NoisePublicKey}

def new (current : NoisePublicKey) : PinnedServerKeys := ⟨⟨current, none, none, none⟩, rfl⟩

def fromSnapshot (snapshot : PinnedServerKeysSnapshot) : Except NoiseError PinnedServerKeys :=
  if h : snapshot.pending.isSome = snapshot.rotationId.isSome then .ok ⟨snapshot, h⟩
  else .error .noPendingRotation

def snapshot (pinned : PinnedServerKeys) : PinnedServerKeysSnapshot := pinned.state

@[simp] theorem fromSnapshot_snapshot (pinned : PinnedServerKeys) :
    fromSnapshot pinned.snapshot = .ok pinned := dif_pos pinned.paired

/-- The part of `stage` that follows the parsing of the announcement. -/
def stageKey (pinned : PinnedServerKeys) (rotationId : RotationId) (key : NoisePublicKey) :
    Except NoiseError PinnedServerKeys :=
  if pinned.state.pending.isSome then
    -- an identical announcement may arrive again
    if pinned.state.rotationId = some rotationId ∧ pinned.state.pending = some key then .ok pinned
    else .error .rotationAlreadyInProgress
  else if key = pinned.state.current ∨ pinned.state.previous = some key then .ok pinned
  else .ok ⟨{ pinned.state with pending := some key, rotationId := some rotationId }, rfl⟩

def stage (pinned : PinnedServerKeys) (announcement : ServerKeyAnnouncement) :
    Except NoiseError PinnedServerKeys := do
  let rotationId ← RotationId.fromBytes announcement.rotationId
  let key ← NoisePublicKey.fromBytes announcement.newPublicKey
  let keyId ← KeyId.fromBytes announcement.newKeyId
  if digest key ≠ keyId then .error .authenticationFailed
  else pinned.stageKey rotationId key

/-- Pending, current, previous. -/
def connectionCandidates (pinned : PinnedServerKeys) : List NoisePublicKey :=
  pinned.state.pending.toList ++ pinned.state.current :: pinned.state.previous.toList

def promotePending (pinned : PinnedServerKeys) (rotationId : RotationId) :
    Except NoiseError PinnedServerKeys :=
  if pinned.state.rotationId ≠ some rotationId then .error .rotationIdMismatch
  else
    match pinned.state.pending with
    | none => .error .noPendingRotation
    | some next => .ok ⟨⟨next, none, some pinned.state.current, none⟩, rfl⟩

def retirePrevious (pinned : PinnedServerKeys) : Except NoiseError PinnedServerKeys :=
  if pinned.state.previous.isNone then .error .noPendingRotation
  else .ok ⟨{ pinned.state with previous := none }, pinned.paired⟩

def cancelPending (pinned : PinnedServerKeys) : Except NoiseError PinnedServerKeys :=
  if pinned.state.pending.isNone then .error .noPendingRotation
  else .ok ⟨{ pinned.state with pending := none, rotationId := none }, rfl⟩

theorem mem_candidates : key ∈ pinned.connectionCandidates ↔
      pinned.state.pending = some key ∨ key = pinned.state.current ∨
        pinned.state.previous = some key := by
  simp [connectionCandidates]

/-- **What staging leaves**: the same keys, or the announced one pending where none was. -/
theorem stageKey_cases (h : pinned.stageKey rotationId key = .ok pinned') :
    pinned' = pinned ∧ (pinned.state.pending = some key ∨ pinned.state.pending = none ∧
        (key = pinned.state.current ∨ pinned.state.previous = some key)) ∨
      pinned.state.pending = none ∧
        pinned'.state = { pinned.state with pending := some key, rotationId := some rotationId } := by
  unfold stageKey at h
  split at h
  · split at h
    · rename_i hsame
      cases h
      exact .inl ⟨rfl, .inl hsame.2⟩
    · cases h
  · rename_i hnone
    have hnone : pinned.state.pending = none := by simpa using hnone
    split at h
    · rename_i hknown
      cases h
      exact .inl ⟨rfl, .inr ⟨hnone, hknown⟩⟩
    · cases h
      exact .inr ⟨hnone, rfl⟩

/-- Staging succeeds unless another key is pending. -/
theorem stageKey_isOk_iff : (pinned.stageKey rotationId key).isOk = true ↔
      pinned.state.pending = none ∨
        pinned.state.rotationId = some rotationId ∧ pinned.state.pending = some key := by
  unfold stageKey
  split
  · rename_i hsome
    have hsome : pinned.state.pending ≠ none := by simpa [Option.isSome_iff_ne_none] using hsome
    split
    · rename_i hsame
      exact ⟨fun _ => .inr hsame, fun _ => rfl⟩
    · rename_i hother
      refine ⟨nofun, fun h => ?_⟩
      rcases h with h | h
      · exact absurd h hsome
      · exact absurd h hother
  · rename_i hnone
    have hnone : pinned.state.pending = none := by simpa using hnone
    refine ⟨fun _ => .inl hnone, fun _ => ?_⟩
    split <;> rfl

/-- **The Server's own announcement** is well formed: only the keys already pinned count. -/
theorem stage_announcement {ring : ServerKeyRing} (ha : ring.announcement digest = some a)
    (pinned : PinnedServerKeys) :
    ∃ next rotationId, ring.state.next = some next ∧ ring.state.rotationId = some rotationId ∧
      pinned.stage digest a = pinned.stageKey rotationId next.publicKey := by
  unfold ServerKeyRing.announcement at ha
  split at ha
  · rename_i next rotationId hnext hid
    cases ha
    refine ⟨next, rotationId, hnext, hid, ?_⟩
    simp [stage, RotationId.fromBytes, NoisePublicKey.fromBytes, KeyId.fromBytes, bind, Except.bind]
  · cases ha

/-- Any announcement that is staged leaves the keys or one more of them. -/
theorem stage_cases (h : pinned.stage digest a = .ok pinned') : pinned' = pinned ∨
      pinned.state.pending = none ∧ ∃ key rotationId,
        pinned'.state = { pinned.state with pending := some key, rotationId := some rotationId } := by
  simp only [stage, bind, Except.bind] at h
  split at h
  · cases h
  · split at h
    · cases h
    · split at h
      · cases h
      · split at h
        · cases h
        · rcases stageKey_cases h with ⟨hsame, _⟩ | ⟨hnone, hstate⟩
          · exact .inl hsame
          · exact .inr ⟨hnone, _, _, hstate⟩

end PinnedServerKeys

/-- `connect_with_candidates`: the key of the first handshake that succeeds. -/
def connectWithCandidates (ring : ServerKeyRing) (candidates : List NoisePublicKey) :
    Option NoisePublicKey :=
  candidates.find? fun key => ring.accepts digest key

end Digest

end Smalux.Rotation
