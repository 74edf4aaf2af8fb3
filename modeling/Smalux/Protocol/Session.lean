/-
  Subject:   One end of a session, its operations cut at their await points
             (tonic_transport/session.rs, session/control.rs, session/driver_loop.rs, policy.rs).

  An operation runs without a break until it awaits something: a frame of the peer, room in the
  outbound channel, or room in the channel of events. `Pc` is where it waits, `Party` the session
  with that place and what it has given out so far.

  * `TonicNoiseSession.handleControl` -- what a control message does before its answer is sent;
  * `Party.wake` -- an operation is called, or what it waits for (other than a frame) happens;
  * `Party.accept` -- a frame of the peer is read;
  * `Party.drop` -- the operation's future is dropped where it waits.

  The statistics of heartbeats are left out: nothing here reads them.
-/
import Smalux.Protocol.Noise

namespace Smalux.Protocol

open Lib

/-! ## 1. The session -/

/-- The role of the session in the Noise handshake. -/
inductive NoiseSessionRole where
  | initiator
  | responder
  deriving DecidableEq, Repr

/-- Durations are in nanoseconds. -/
structure HeartbeatPolicy where
  interval : Nat := 30 * 10 ^ 9
  timeout : Nat := 90 * 10 ^ 9
  deriving DecidableEq, Repr

structure RekeyPolicy where
  maxAge : Nat := 3600 * 10 ^ 9
  maxFrames : Nat := 2 ^ 20
  automatic : Bool := true
  deriving DecidableEq, Repr

/-- A reading of the monotonic clock and of the system clock. -/
structure Now where
  instant : Nat
  unixMicros : Nat
  deriving DecidableEq, Repr

structure TonicNoiseSession (β : Type) where
  secure : SecureSession
  role : NoiseSessionRole
  establishedAt : Nat := 0
  lastReceived : Nat := 0
  nextPingNonce : Nat := 1
  /-- the nonces of the Pings without a Pong yet -/
  pendingPings : List Nat := []
  heartbeat : HeartbeatPolicy := {}
  rekey : RekeyPolicy := {}
  bufferedMessages : List (SecureMessage β) := []
  deriving DecidableEq, Repr

/-- The first nonce from `nonce` on that is not pending, and the one after it. -/
def freeNonce (pending : List Nat) : Nat → Nat → Nat × Nat
  | 0, nonce => (nonce, (nonce + 1) % 2 ^ 64)
  | fuel + 1, nonce =>
    if nonce ∈ pending then freeNonce pending fuel ((nonce + 1) % 2 ^ 64)
    else (nonce, (nonce + 1) % 2 ^ 64)

/-- What handling a control message comes to. -/
inductive Handled (β : Type) where
  | done (session : TonicNoiseSession β)
  /-- an answer is sent; with a generation, the outgoing key is switched after it -/
  | reply (session : TonicNoiseSession β) (answer : Control) (rekeyed : Option Nat)
  | failed (error : TransportError)

namespace TonicNoiseSession

variable {β : Type} (s : TonicNoiseSession β) (now : Now)

def shouldPing : Bool := decide (s.heartbeat.interval ≤ now.instant - s.lastReceived)

def heartbeatExpired : Bool := decide (s.heartbeat.timeout ≤ now.instant - s.lastReceived)

def shouldRekey : Bool :=
  s.rekey.automatic &&
    (decide (s.rekey.maxAge ≤ now.instant - s.establishedAt) ||
      decide (s.rekey.maxFrames ≤ s.secure.encryptedFrames))

/-- `maintenance_status().rekey_due`: only the initiator starts a rekey. -/
def rekeyDue : Bool := decide (s.role = .initiator) && s.shouldRekey now

def allocatePingNonce : Nat × TonicNoiseSession β :=
  let nonce := freeNonce s.pendingPings s.pendingPings.length s.nextPingNonce
  (nonce.1, { s with nextPingNonce := nonce.2 })

def handleControl (body : Option Control) : Handled β :=
  match body with
  | some (.ping nonce sentAt) =>
    .reply s (.pong nonce sentAt now.unixMicros now.unixMicros) none
  | some (.pong nonce _ _ _) => .done { s with pendingPings := s.pendingPings.erase nonce }
  | some (.rekeyRequest generation) =>
    if s.role = .initiator then .failed (.protocol "invalid session control message")
    else if generation ≠ saturatingSucc s.secure.generation then
      .failed (.protocol "unexpected rekey generation")
    else
      .reply { s with secure := s.secure.rekeyIncoming } (.rekeyAck generation) (some generation)
  | some (.rekeyRequired _) =>
    if s.role = .initiator then .failed .rekeyRequired
    else .failed (.protocol "invalid session control message")
  | some (.rekeyAck _) => .failed (.protocol "unexpected rekey acknowledgement")
  | none => .failed (.protocol "invalid session control message")

end TonicNoiseSession

/-! ## 2. Places to wait -/

/-- Where the code goes on. -/
inductive Next where
  /-- back to the caller, or to the driver's `select` -/
  | done
  /-- the loop of `receive` -/
  | receive
  /-- back to the caller; a driver first publishes what is buffered -/
  | finish
  /-- the second half of `perform_maintenance` -/
  | maintain (pingDue : Bool)
  deriving DecidableEq, Repr

/-- What follows when the outbound channel has taken a frame. -/
inductive After where
  | resume (next : Next)
  /-- in `request_rekey`: wait for the acknowledgement -/
  | rekeyWait (generation : Nat) (next : Next)
  /-- in `handle_control`, after the acknowledgement: switch the outgoing key -/
  | finishRekey (generation : Nat) (next : Next)
  deriving DecidableEq, Repr

/-- The await points. -/
inductive Pc (β B : Type) where
  /-- no operation is running; a driver waits in its `select` -/
  | idle
  /-- `receive` waits for a frame -/
  | receiving
  /-- an encrypted frame waits for room in the outbound channel -/
  | sending (frame : ProtocolFrame B) (after : After)
  /-- `request_rekey` waits for the acknowledgement -/
  | rekeyWait (generation : Nat) (next : Next)
  /-- the driver waits for room in the channel of events; after the `last` one it ends -/
  | publishing (message : SecureMessage β) (last : Bool)
  | stopped (error : TransportError)
  deriving DecidableEq, Repr

structure Party (β B : Type) where
  session : TonicNoiseSession β
  /-- the session belongs to a `SessionDriver` -/
  driven : Bool := false
  pc : Pc β B := .idle
  /-- a `request_rekey` has failed after it had handed its request over -/
  requestFailed : Bool := false
  /-- the frames handed to the outbound channel -/
  handed : List (ProtocolFrame B) := []
  /-- how many frames of the peer have been read -/
  consumed : Nat := 0
  /-- the messages its user has sent -/
  sent : List (SecureMessage β) := []
  /-- the messages for its user that have been decrypted -/
  opened : List (SecureMessage β) := []
  /-- the messages `receive` has returned -/
  returned : List (SecureMessage β) := []
  /-- what the driver has published -/
  published : List (Except TransportError (SessionEvent β)) := []

namespace Party

section Running

variable {β B : Type} (prost : Prost (SecureMessage β) B) (p : Party β B) (now : Now)

def stop (error : TransportError) : Party β B := { p with pc := .stopped error }

/-- An operation is refused: its caller gets the error, a driver ends. -/
def refuse (error : TransportError) : Party β B := if p.driven then p.stop error else p

/-- `request_rekey` gives up. Its caller gets the error and keeps the session, with the keys it had;
    a driver ends. -/
def abandon (error : TransportError) : Party β B :=
  if p.driven then p.stop error else { p with pc := .idle, requestFailed := true }

/-- Encrypt a message; what follows is for when the channel has taken it. -/
def send (message : SecureMessage β) (after : After) (onError : TransportError → Party β B) :
    Party β B :=
  match p.session.secure.encrypt prost message with
  | (.error e, _) => onError (.noise e)
  | (.ok frame, secure) =>
    { p with session := { p.session with secure }, pc := .sending frame after }

/-- `request_rekey`, up to its first await. -/
def requestRekey (next : Next) (onError : TransportError → Party β B) : Party β B :=
  let generation := saturatingSucc p.session.secure.generation
  p.send prost (control (.rekeyRequest generation)) (.rekeyWait generation next) onError

def ping (nonce : Nat) (next : Next) (onError : TransportError → Party β B) : Party β B :=
  if nonce ∈ p.session.pendingPings then
    onError (.protocol "heartbeat nonce is already pending")
  else
    let session := { p.session with pendingPings := nonce :: p.session.pendingPings }
    { p with session }.send prost (control (.ping nonce now.unixMicros)) (.resume next) onError

/-- A Ping with a nonce of the session's own. -/
def autoPing (next : Next) : Party β B :=
  let allocated := p.session.allocatePingNonce
  let p := { p with session := allocated.2 }
  p.ping prost now allocated.1 next p.stop

/-- `flush_buffered_events`: publish the next buffered message. -/
def flush : Party β B :=
  match p.session.bufferedMessages with
  | [] => { p with pc := .idle }
  | message :: rest =>
    { p with session := { p.session with bufferedMessages := rest }, pc := .publishing message false }

def finish : Party β B := if p.driven then p.flush else { p with pc := .idle }

/-- `record_heartbeat_timeout` and the error. -/
def expire : Party β B :=
  { p with session := { p.session with pendingPings := [] } }.stop .heartbeatTimeout

/-- The top of `receive`'s loop. -/
def receive : Party β B :=
  match p.session.bufferedMessages with
  | message :: rest =>
    { p with
      session := { p.session with bufferedMessages := rest }
      returned := p.returned ++ [message]
      pc := .idle }
  | [] =>
    if p.session.rekeyDue now then p.requestRekey prost .receive p.stop
    else if p.session.heartbeatExpired now then p.expire
    else { p with pc := .receiving }

def resume (next : Next) : Party β B :=
  match next with
  | .done => { p with pc := .idle }
  | .receive => p.receive prost now
  | .finish => p.finish
  | .maintain pingDue => if pingDue then p.autoPing prost now .finish else p.finish

def performMaintenance : Party β B :=
  if p.session.heartbeatExpired now then p.expire
  else if p.session.rekeyDue now then
    p.requestRekey prost (.maintain (p.session.shouldPing now)) p.stop
  else p.resume prost now (.maintain (p.session.shouldPing now))

/-- The outbound channel has taken the frame. -/
def sentFrame (after : After) : Party β B :=
  match after with
  | .resume next => p.resume prost now next
  | .rekeyWait generation next => { p with pc := .rekeyWait generation next }
  | .finishRekey generation next =>
    let secure := p.session.secure.rekeyOutgoing.finishRekey generation
    { p with session := { p.session with secure, establishedAt := now.instant } }.resume
      prost now next

/-- The acknowledgement is there: both keys are switched. -/
def acknowledged (generation : Nat) (next : Next) : Party β B :=
  let secure := p.session.secure.rekeyIncoming.rekeyOutgoing.finishRekey generation
  { p with
    session :=
      { p.session with secure, establishedAt := now.instant, lastReceived := now.instant } }.resume
    prost now next

/-- A message for the user: `receive` returns it, a driver publishes it. A message that is no
    event ends the driver. -/
def deliver (next : Next) (message : SecureMessage β) : Party β B :=
  match next with
  | .receive => { p with returned := p.returned ++ [message], pc := .idle }
  | _ =>
    let last := match SessionEvent.tryFrom message with
      | .ok _ => false
      | .error _ => true
    { p with pc := .publishing message last }

/-- A control message outside of `request_rekey`. -/
def control (next : Next) (body : Option Control) : Party β B :=
  match p.session.handleControl now body with
  | .done session => { p with session }.resume prost now next
  | .reply session answer none =>
    { p with session }.send prost (Protocol.control answer) (.resume next) p.stop
  | .reply session answer (some generation) =>
    { p with session }.send prost (Protocol.control answer) (.finishRekey generation next)
      { p with session }.stop
  | .failed .rekeyRequired =>
    if p.session.role = .initiator then p.requestRekey prost next p.stop
    else p.stop .rekeyRequired
  | .failed error => p.stop error

def processInboundFrame (next : Next) (frame : ProtocolFrame B) : Party β B :=
  match p.session.secure.decrypt prost frame with
  | (.error e, secure) => { p with session := { p.session with secure } }.stop (.noise e)
  | (.ok message, secure) =>
    let p := { p with session := { p.session with secure, lastReceived := now.instant } }
    match message.body with
    | some (.sessionControl body) => p.control prost now next body
    | _ => { p with opened := p.opened ++ [message] }.deliver next message

/-- A control message while `request_rekey` waits: everything but the acknowledgement and a
    repeated requirement is handled as usual. -/
def controlInRekey (generation : Nat) (next : Next) (body : Option Control) : Party β B :=
  if body = some (.rekeyAck generation) then p.acknowledged prost now generation next
  else if body = some (.rekeyRequired generation) then { p with pc := .rekeyWait generation next }
  else
    match p.session.handleControl now body with
    | .done session => { p with session, pc := .rekeyWait generation next }
    | .reply session answer _ =>
      { p with session }.send prost (Protocol.control answer) (.rekeyWait generation next) p.abandon
    | .failed error => p.abandon error

/-- A frame while `request_rekey` waits. -/
def rekeyFrame (generation : Nat) (next : Next) (frame : ProtocolFrame B) : Party β B :=
  match p.session.secure.decrypt prost frame with
  | (.error e, secure) => { p with session := { p.session with secure } }.stop (.noise e)
  | (.ok message, secure) =>
    let p := { p with session := { p.session with secure } }
    match message.body with
    | some (.sessionControl body) => p.controlInRekey prost now generation next body
    | _ =>
      { p with
        opened := p.opened ++ [message]
        session :=
          { p.session with bufferedMessages := p.session.bufferedMessages ++ [message] }
        pc := .rekeyWait generation next }

end Running

end Party

/-! ## 3. What happens to a party -/

/-- The operations of a session, and the commands of its driver. -/
inductive Operation (β : Type) where
  | send (message : UserMessage β)
  | ping (nonce : Nat)
  | requireRekey
  | requestRekey
  | receive
  | performMaintenance
  | setHeartbeatPolicy (policy : HeartbeatPolicy)
  | setRekeyPolicy (policy : RekeyPolicy)
  | shutdown
  deriving DecidableEq

/-- What can happen to a party, other than a frame. -/
inductive Wake (β : Type) where
  | call (operation : Operation β)
  /-- the driver's maintenance interval -/
  | tick
  /-- the time allowed for the next frame is over -/
  | elapsed
  /-- the outbound channel takes the frame -/
  | room
  | outboundClosed
  /-- the channel of events takes the event -/
  | taken
  | eventsClosed
  /-- the peer's stream ends or fails -/
  | ended
  /-- the session is given to a driver -/
  | drive
  deriving DecidableEq

namespace Party

section Happenings

variable {β B : Type} (prost : Prost (SecureMessage β) B) (p : Party β B) (now : Now)

/-- Call an operation of a session at rest, or give its driver the command. -/
def call (operation : Operation β) : Party β B :=
  match operation with
  | .send message =>
    { p with sent := p.sent ++ [message.val] }.send prost message.val (.resume .done) p.refuse
  | .ping nonce => p.ping prost now nonce .done p.refuse
  | .requireRekey =>
    if p.session.role = .initiator then
      p.refuse (.protocol "only the Noise responder may require rekey")
    else
      p.send prost (Protocol.control (.rekeyRequired (saturatingSucc p.session.secure.generation)))
        (.resume .done) p.refuse
  | .requestRekey =>
    if p.session.role ≠ .initiator then
      p.refuse (.protocol "only the Noise initiator may request rekey")
    else p.requestRekey prost .finish p.refuse
  | .receive => if p.driven then p else p.receive prost now
  | .performMaintenance => if p.driven then p else p.performMaintenance prost now
  | .setHeartbeatPolicy policy =>
    if p.driven then p else { p with session := { p.session with heartbeat := policy } }
  | .setRekeyPolicy policy =>
    if p.driven then p else { p with session := { p.session with rekey := policy } }
  | .shutdown => if p.driven then p.stop .closed else p

/-- An event has been published. -/
def eventTaken (message : SecureMessage β) (last : Bool) : Party β B :=
  let p := { p with published := p.published ++ [SessionEvent.tryFrom message] }
  if last then p.stop .closed else p.flush

/-- What happens only counts where the party waits for it. -/
def wake (w : Wake β) : Party β B :=
  match w, p.pc with
  | .call operation, .idle => p.call prost now operation
  | .tick, .idle => if p.driven then p.performMaintenance prost now else p
  | .drive, .idle => { p with driven := true }
  | .ended, .idle => if p.driven then p.stop .closed else p
  | .elapsed, .receiving => p.autoPing prost now .receive
  | .ended, .receiving => p.stop .closed
  | .room, .sending frame after =>
    { p with handed := p.handed ++ [frame] }.sentFrame prost now after
  | .outboundClosed, .sending _ _ => p.stop .closed
  | .elapsed, .rekeyWait _ _ => p.abandon (.timeout "waiting for Noise rekey acknowledgement")
  | .ended, .rekeyWait _ _ => p.abandon .closed
  | .taken, .publishing message last => p.eventTaken message last
  | .eventsClosed, .publishing _ _ => p.stop .closed
  | _, _ => p

/-- A frame is being awaited. -/
def reads : Bool :=
  match p.pc with
  | .idle => p.driven
  | .receiving => true
  | .rekeyWait _ _ => true
  | _ => false

/-- Read a frame of the peer. -/
def accept (frame : ProtocolFrame B) : Party β B :=
  let read := { p with consumed := p.consumed + 1 }
  match p.pc with
  | .idle => if p.driven then read.processInboundFrame prost now .finish frame else p
  | .receiving => read.processInboundFrame prost now .receive frame
  | .rekeyWait generation next => read.rekeyFrame prost now generation next frame
  | _ => p

/-- The future of the running operation is dropped: what it has in hand is gone. A driver's is
    not. -/
def drop : Party β B :=
  match p.pc with
  | .receiving | .sending _ _ | .rekeyWait _ _ => if p.driven then p else { p with pc := .idle }
  | _ => p

end Happenings

end Party

end Smalux.Protocol
