/-
  Subject:   The Noise session: messages encoded, sealed and framed (noise/session.rs).

  `prost` (the encoding) and `snow` (the transport cipher) are third-party code: the encoding is a
  parameter that can be decoded again, the cipher the ideal one, with `snow`'s limit on the length
  of a message.

  * `SecureSession.encrypt`, `SecureSession.decrypt` -- as the source, limits included;
  * **`round_trip_iff`** -- which messages within `MAX_NOISE_PLAINTEXT_BYTES` get through.
-/
import Smalux.Lib.Cipher
import Smalux.Protocol.Message

namespace Smalux.Protocol

open Lib

/-! ## 1. The encoding and the transport cipher -/

/-- The encoding of messages `M` as byte strings `B`, as `prost` gives it. -/
structure Prost (M B : Type) where
  encode : M → B
  decode : B → Option M
  len : B → Nat
  decode_encode : ∀ m, decode (encode m) = some m

/-- The bytes of the authentication tag. -/
def tagLen : Nat := 16

/-- `snow`'s limit on a transport message, tag included. -/
def maxMessageLen : Nat := 65535

/-- `snow`'s `TransportState`. -/
structure TransportState where
  sending : Cipher
  receiving : Cipher
  deriving DecidableEq, Repr

section Transport

variable {B : Type} (len : B → Nat) (t : TransportState)

/-- `write_message` into a buffer of `room` bytes. -/
def TransportState.writeMessage (payload : B) (room : Nat) :
    Except SnowError (Sealed B) × TransportState :=
  if maxMessageLen < len payload + tagLen ∨ room < len payload + tagLen then (.error .input, t)
  else
    let sealed := t.sending.encrypt payload
    (.ok sealed.1, { t with sending := sealed.2 })

/-- `read_message` into a buffer of `room` bytes. -/
def TransportState.readMessage (message : Sealed B) (room : Nat) :
    Except SnowError B × TransportState :=
  if maxMessageLen < len message.body + tagLen then (.error .input, t)
  else if room < len message.body then (.error .decrypt, t)
  else
    match t.receiving.decrypt message with
    | (none, _) => (.error .decrypt, t)
    | (some payload, receiving) => (.ok payload, { t with receiving := receiving })

end Transport

/-! ## 2. The session -/

/-- The outer frame of the stream. -/
inductive ProtocolFrame (B : Type) where
  | handshake
  | ciphertext (ciphertext : Sealed B)
  | protocolError
  | empty
  deriving DecidableEq, Repr

/-- `u64::saturating_add(1)`. -/
def saturatingSucc (n : Nat) : Nat := min (n + 1) (2 ^ 64 - 1)

def maxNoisePlaintextBytes : Nat := 1024 * 1024 - 4096

structure SecureSession where
  transport : TransportState
  generation : Nat := 0
  encryptedFrames : Nat := 0
  deriving DecidableEq, Repr

namespace SecureSession

section Frames

variable {M B : Type} (prost : Prost M B) (s : SecureSession)

def encrypt (message : M) : Except NoiseError (ProtocolFrame B) × SecureSession :=
  let plaintext := prost.encode message
  if maxNoisePlaintextBytes < prost.len plaintext then (.error .messageTooLarge, s)
  else
    match s.transport.writeMessage prost.len plaintext (prost.len plaintext + 16) with
    | (.error e, _) => (.error (.crypto e), s)
    | (.ok ciphertext, transport) =>
      (.ok (.ciphertext ciphertext),
        { s with transport, encryptedFrames := saturatingSucc s.encryptedFrames })

def decrypt (frame : ProtocolFrame B) : Except NoiseError M × SecureSession :=
  match frame with
  | .ciphertext ciphertext =>
    if maxNoisePlaintextBytes + 16 < prost.len ciphertext.body + tagLen then
      (.error .messageTooLarge, s)
    else
      match s.transport.readMessage prost.len ciphertext maxNoisePlaintextBytes with
      | (.error e, _) => (.error (.crypto e), s)
      | (.ok plaintext, transport) =>
        let s := { s with transport, encryptedFrames := saturatingSucc s.encryptedFrames }
        match prost.decode plaintext with
        | none => (.error .encode, s)
        | some message => (.ok message, s)
  | _ => (.error .invalidFrame, s)

end Frames

variable (s : SecureSession)

def rekeyIncoming : SecureSession :=
  { s with transport := { s.transport with receiving := s.transport.receiving.rekey } }

def rekeyOutgoing : SecureSession :=
  { s with transport := { s.transport with sending := s.transport.sending.rekey } }

/-- Both directions have switched: the new generation counts its frames anew. -/
def finishRekey (generation : Nat) : SecureSession :=
  { s with generation, encryptedFrames := 0 }

/-- The session after a frame it has sent. -/
def afterSending : SecureSession :=
  { s with
    transport := { s.transport with sending := s.transport.sending.next }
    encryptedFrames := saturatingSucc s.encryptedFrames }

/-- The session after a frame it has read. -/
def afterReading : SecureSession :=
  { s with
    transport := { s.transport with receiving := s.transport.receiving.next }
    encryptedFrames := saturatingSucc s.encryptedFrames }

end SecureSession

/-! ## 3. What gets through -/

section RoundTrip

variable {M B : Type} (prost : Prost M B)

/-- The message with its tag is within `snow`'s limit. -/
def Fits (message : M) : Prop := prost.len (prost.encode message) + tagLen ≤ maxMessageLen

instance (message : M) : Decidable (Fits prost message) := Nat.decLe _ _

variable {prost} {message : M}

theorem encrypt_of_fits (h : Fits prost message) (s : SecureSession) : s.encrypt prost message =
      (.ok (.ciphertext ⟨s.transport.sending, prost.encode message⟩), s.afterSending) := by
  unfold Fits tagLen maxMessageLen at h
  have hmax : ¬ maxNoisePlaintextBytes < prost.len (prost.encode message) := by
    unfold maxNoisePlaintextBytes
    omega
  have hroom : ¬ (maxMessageLen < prost.len (prost.encode message) + tagLen ∨
      prost.len (prost.encode message) + 16 < prost.len (prost.encode message) + tagLen) := by
    unfold maxMessageLen tagLen
    omega
  unfold SecureSession.encrypt TransportState.writeMessage
  simp only [if_neg hmax, if_neg hroom]
  rfl

/-- What does not fit is refused, and leaves the session as it was. -/
theorem encrypt_of_not_fits (h : ¬ Fits prost message) (s : SecureSession) :
    ∃ e, s.encrypt prost message = (.error e, s) := by
  unfold Fits tagLen maxMessageLen at h
  have hlong : maxMessageLen < prost.len (prost.encode message) + tagLen ∨
      prost.len (prost.encode message) + 16 < prost.len (prost.encode message) + tagLen := by
    unfold maxMessageLen tagLen
    omega
  by_cases hmax : maxNoisePlaintextBytes < prost.len (prost.encode message)
  · exact ⟨.messageTooLarge, by simp only [SecureSession.encrypt, if_pos hmax]⟩
  · refine ⟨.crypto .input, ?_⟩
    simp only [SecureSession.encrypt, if_neg hmax, TransportState.writeMessage, if_pos hlong]

/-- A frame that fits is read back under the cipher it was sealed with. -/
theorem decrypt_of_fits (h : Fits prost message) (s : SecureSession) :
    s.decrypt prost (.ciphertext ⟨s.transport.receiving, prost.encode message⟩) =
      (.ok message, s.afterReading) := by
  unfold Fits tagLen maxMessageLen at h
  have hmax : ¬ maxNoisePlaintextBytes + 16 < prost.len (prost.encode message) + tagLen := by
    unfold maxNoisePlaintextBytes tagLen
    omega
  have hlen : ¬ maxMessageLen < prost.len (prost.encode message) + tagLen := by
    unfold maxMessageLen tagLen
    omega
  have hroom : ¬ maxNoisePlaintextBytes < prost.len (prost.encode message) := by
    unfold maxNoisePlaintextBytes
    omega
  unfold SecureSession.decrypt TransportState.readMessage
  simp only [if_neg hmax, if_neg hlen, if_neg hroom, Cipher.decrypt, if_true, prost.decode_encode]
  rfl

/-- The peer reads with the key and the nonce this side sends with. -/
def Synchronised (sender receiver : SecureSession) : Prop :=
  sender.transport.sending = receiver.transport.receiving

/-- The message is encrypted, and the peer reads it from the frame. -/
def RoundTrip (prost : Prost M B) (sender receiver : SecureSession) (message : M) : Prop :=
  ∃ frame, (sender.encrypt prost message).1 = .ok frame ∧
    (receiver.decrypt prost frame).1 = .ok message

/-- **The messages that get through**: not all within `encrypt`'s own limit, but those that fit
    into a message of the Noise library with their tag. -/
theorem round_trip_iff {sender receiver : SecureSession} (hs : Synchronised sender receiver) :
    RoundTrip prost sender receiver message ↔ Fits prost message := by
  constructor
  · rintro ⟨frame, hencrypt, -⟩
    by_contra hfits
    obtain ⟨e, he⟩ := encrypt_of_not_fits hfits sender
    rw [he] at hencrypt
    cases hencrypt
  · intro hfits
    refine ⟨_, congrArg Prod.fst (encrypt_of_fits hfits sender), ?_⟩
    rw [hs, decrypt_of_fits hfits receiver]

end RoundTrip

section Sizes

/-- An encoding for trying messages out: a payload is written as the number of its bytes. -/
def sized : Prost (SecureMessage Nat) (SecureMessage Nat) where
  encode message := message
  decode := some
  len
    | ⟨some (.business _ payload)⟩ => payload + 4
    | _ => 40
  decode_encode _ := rfl

def freshSession : SecureSession := { transport := ⟨⟨0, 0⟩, ⟨0, 0⟩⟩ }

/-- A report whose encoding has `bytes + 4` bytes. -/
def reportOf (bytes : Nat) : SecureMessage Nat := ⟨some (.business .taskReport bytes)⟩

theorem round_trip_small : Synchronised freshSession freshSession ∧
      RoundTrip sized freshSession freshSession (reportOf 512) :=
  have hs : Synchronised freshSession freshSession := rfl
  ⟨hs, (round_trip_iff hs).mpr (by decide)⟩

/-- **A report of 65520 bytes is refused**: it is far below `MAX_NOISE_PLAINTEXT_BYTES`, and one
    byte too long for the Noise library. -/
theorem large_message_refused : sized.len (sized.encode (reportOf 65516)) ≤ maxNoisePlaintextBytes ∧
      Synchronised freshSession freshSession ∧
      freshSession.encrypt sized (reportOf 65516) = (.error (.crypto .input), freshSession) ∧
      ¬ RoundTrip sized freshSession freshSession (reportOf 65516) := by
  have hrefused : freshSession.encrypt sized (reportOf 65516) =
      (.error (.crypto .input), freshSession) := rfl
  refine ⟨by decide, rfl, hrefused, ?_⟩
  rintro ⟨frame, hframe, -⟩
  cases hframe

end Sizes

end Smalux.Protocol
