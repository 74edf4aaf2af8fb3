/-
  Subject:   The registration of one Agent: its program, its state file, its sessions with the Server
             and the Server's database (client/connection.rs, transport/session/registration.rs).

  The Agent has one key pair; the private half is nobody else's, so other transactions on the
  database never concern its key. A save of the state file is atomic. The Agent may stop anywhere; a
  session it has left may go on at the Server, with the messages still under way.

  * `World.step` -- one step of the Agent, of the Server in one of the sessions, or of somebody else;
  * `World.Inv` -- a commit is under way only for the registration that is in the state file;
  * **`committed_registration_stored`** -- what the Server has committed for the Agent's key is in the
    Agent's state file.
-/
import Smalux.Agent.State
import Smalux.Server.RegistryRuns

namespace Smalux.Enrollment

open Lib Rotation Agent Server ServerDatabase List

/-! ## 1. The model -/

/-- `verify_same_pending`. -/
def verifySamePending (previous current : PersistedAgentState) : Bool :=
  previous.registration.map (·.agentId) = current.registration.map (·.agentId) &&
    previous.identity.publicKey = current.identity.publicKey &&
      previous.registration.map (·.serverKeys) = current.registration.map (·.serverKeys) &&
        previous.registration.map (·.registrationId) = current.registration.map (·.registrationId)

inductive AgentMessage where
  | request (tokenId : String) (psk : RegistrationPsk)
  | commit (registrationId : RegistrationId)
  deriving DecidableEq

inductive ServerMessage where
  | prepared (registrationId : RegistrationId) (agentId : String)
  | committed (registrationId : RegistrationId)
  | rejected
  deriving DecidableEq

/-- Where the Server is in `handle_registration_session`. -/
inductive ServerStage where
  | awaitsRequest
  | awaitsCommit
  | over
  deriving DecidableEq

/-- A session after its `XXpsk3` handshake, with the messages under way in both directions. -/
structure Session where
  tokenId : String
  serverKey : NoisePublicKey
  stage : ServerStage := .awaitsRequest
  pending : Option PendingAgentRegistration := none
  toServer : List AgentMessage := []
  toAgent : List ServerMessage := []

/-- Where the Agent is in `establish_initial`. -/
inductive Process where
  | stopped
  /-- no state file: the generated identity is about to be saved -/
  | saveIdentity
  /-- `connect_registered` -/
  | connecting (state : PersistedAgentState)
  /-- `register` -/
  | registering (state : PersistedAgentState)
  | awaitsPrepared (state : PersistedAgentState) (session : Nat)
  | savePending (session : Nat) (registration : Registration)
  | sendCommit (session : Nat) (registration : Registration)
  | awaitsCommitted (session : Nat) (registration : Registration)
  | saveRegistered (registration : Registration)
  | running (registration : Registration)

structure World where
  db : ServerDatabase := .empty
  /-- the state file -/
  store : Option PersistedAgentState := none
  process : Process := .stopped
  sessions : Table Nat Session := .empty

inductive Act where
  /-- `establish_initial` loads the state file -/
  | load
  | saveIdentity
  /-- the IK handshake has succeeded and the Server looks the Agent up -/
  | connect
  /-- the `XXpsk3` handshake with the token's key, and the request -/
  | openSession (session now : Nat) (tokenId : String) (psk : RegistrationPsk)
      (serverKey : NoisePublicKey)
  | receivePrepared
  | savePending
  | sendCommit
  | receiveCommitted
  | saveRegistered
  /-- a Server key is staged or promoted -/
  | saveServerKeys (keys : PinnedServerKeys)
  /-- an error, a lost connection or a crash -/
  | stop
  /-- the Server takes the request of a session -/
  | prepare (session now : Nat) (drawn : RegistrationId × String)
  /-- the Server takes the commit of a session -/
  | commit (session now : Nat)
  /-- the Server ends a session: a timeout, a lost connection or a restart -/
  | close (session : Nat)
  /-- a transaction for another Agent, of the management or of the cleanup task -/
  | other (now : Nat) (t : Transaction)

/-- Whether a transaction is one for this key. -/
def concerns (db : ServerDatabase) (key : NoisePublicKey) : Transaction → Bool
  | .prepare _ _ agentPublicKey _ => agentPublicKey = key
  | .commit pending =>
    (db.registrations.rows.get pending.registrationId).any (·.agentPublicKey = key)
  | _ => false

namespace World

variable (identity : NoiseIdentity)

variable (w : World)

/-- `establish_initial`, up to the choice by the stage. -/
def load : World :=
  match w.store with
  | none => { w with process := .saveIdentity }
  | some state =>
    match state.stage with
    | .identityPrepared => { w with process := .registering state }
    | .registrationPending | .registered => { w with process := .connecting state }

/-- The answer to the IK handshake. -/
def connect (state : PersistedAgentState) : World :=
  match w.db.findAgentAuthorization identity.publicKey, state with
  | .authorized _, .registrationPending registration =>
    { w with process := .saveRegistered registration }
  | .authorized _, .registered registration => { w with process := .running registration }
  -- `is_agent_not_authorized`
  | .revoked, .registrationPending _ | .unauthorized, .registrationPending _ =>
    { w with process := .registering state }
  | _, _ => { w with process := .stopped }

/-- The next message of the Server is read. -/
def receivePrepared (state : PersistedAgentState) (id : Nat) (session : Session) : World :=
  match session.toAgent with
  | [] => w
  | .prepared registrationId agentId :: rest =>
    let registration : Registration :=
      ⟨agentId, state.identity, .new session.serverKey, registrationId⟩
    let w := { w with sessions := w.sessions.insert id { session with toAgent := rest } }
    if state.stage = .registrationPending &&
        !verifySamePending state (.registrationPending registration) then
      { w with process := .stopped }
    else { w with process := .savePending id registration }
  | _ :: _ => { w with process := .stopped }

def receiveCommitted (id : Nat) (session : Session) (registration : Registration) : World :=
  match session.toAgent with
  | [] => w
  | .committed registrationId :: rest =>
    if registrationId = registration.registrationId then
      { w with
        process := .saveRegistered registration
        sessions := w.sessions.insert id { session with toAgent := rest } }
    else { w with process := .stopped }
  | _ :: _ => { w with process := .stopped }

/-- The Server turns a session down. -/
def reject (id : Nat) (session : Session) : World :=
  { w with
    sessions := w.sessions.insert id
      { session with stage := .over, toAgent := session.toAgent ++ [.rejected] } }

/-- `receive_and_prepare_registration`. -/
def prepare (id : Nat) (session : Session) (now : Nat) (drawn : RegistrationId × String) : World :=
  match session.stage, session.toServer with
  | .awaitsRequest, .request tokenId psk :: rest =>
    if tokenId ≠ session.tokenId then w.reject id { session with toServer := rest }
    else
      match w.db.prepareAgentRegistration now tokenId psk identity.publicKey drawn with
      | .error _ => w.reject id { session with toServer := rest }
      | .ok (db, pending) =>
        { w with
          db
          sessions := w.sessions.insert id
            { session with
              stage := .awaitsCommit
              pending := some pending
              toServer := rest
              toAgent := session.toAgent ++
                [.prepared pending.registrationId pending.agentId] } }
  | .awaitsRequest, _ :: rest => w.reject id { session with toServer := rest }
  | _, _ => w

/-- `receive_and_commit_registration`. -/
def commit (w : World) (id : Nat) (session : Session) (now : Nat) : World :=
  match session.stage, session.pending, session.toServer with
  | .awaitsCommit, some pending, .commit registrationId :: rest =>
    if registrationId ≠ pending.registrationId then w.reject id { session with toServer := rest }
    else
      match w.db.commitAgentRegistration now pending with
      | .error _ => w.reject id { session with toServer := rest }
      | .ok db =>
        { w with
          db
          sessions := w.sessions.insert id
            { session with
              stage := .over
              toServer := rest
              toAgent := session.toAgent ++ [.committed registrationId] } }
  | .awaitsCommit, _, _ :: rest => w.reject id { session with toServer := rest }
  | _, _, _ => w

/-- One step; one that is not next changes nothing. -/
def step : Act → World
  | .load =>
    match w.process with
    | .stopped => w.load
    | _ => w
  | .saveIdentity =>
    match w.process with
    | .saveIdentity =>
      { w with
        store := some (.identityPrepared identity)
        process := .registering (.identityPrepared identity) }
    | _ => w
  | .connect =>
    match w.process with
    | .connecting state => w.connect identity state
    | _ => w
  | .openSession id now tokenId psk serverKey =>
    match w.process with
    | .registering state =>
      if w.sessions.get id = none ∧ w.db.loadActiveRegistrationPsk now tokenId = some psk then
        { w with
          process := .awaitsPrepared state id
          sessions := w.sessions.insert id
            { tokenId, serverKey, toServer := [.request tokenId psk] } }
      else w
    | _ => w
  | .receivePrepared =>
    match w.process with
    | .awaitsPrepared state id =>
      match w.sessions.get id with
      | some session => w.receivePrepared state id session
      | none => w
    | _ => w
  | .savePending =>
    match w.process with
    | .savePending id registration =>
      { w with
        store := some (.registrationPending registration)
        process := .sendCommit id registration }
    | _ => w
  | .sendCommit =>
    match w.process with
    | .sendCommit id registration =>
      match w.sessions.get id with
      | some session =>
        { w with
          process := .awaitsCommitted id registration
          sessions := w.sessions.insert id
            { session with
              toServer := session.toServer ++ [.commit registration.registrationId] } }
      | none => w
    | _ => w
  | .receiveCommitted =>
    match w.process with
    | .awaitsCommitted id registration =>
      match w.sessions.get id with
      | some session => w.receiveCommitted id session registration
      | none => w
    | _ => w
  | .saveRegistered =>
    match w.process with
    | .saveRegistered registration =>
      { w with store := some (.registered registration), process := .running registration }
    | _ => w
  | .saveServerKeys keys =>
    match w.process with
    | .running registration =>
      { w with
        store := some (.registered { registration with serverKeys := keys })
        process := .running { registration with serverKeys := keys } }
    | _ => w
  | .stop => { w with process := .stopped }
  | .prepare id now drawn =>
    match w.sessions.get id with
    | some session => w.prepare identity id session now drawn
    | none => w
  | .commit id now =>
    match w.sessions.get id with
    | some session => w.commit id session now
    | none => w
  | .close id =>
    match w.sessions.get id with
    | some session =>
      { w with sessions := w.sessions.insert id { session with stage := .over } }
    | none => w
  | .other now t =>
    if concerns w.db identity.publicKey t then w else { w with db := t.apply w.db now }

end World

/-! ## 2. The invariant -/

/-- The state file holds these ids. -/
def Stored (store : Option PersistedAgentState) (pending : PendingAgentRegistration) : Prop :=
  ∃ registration, store.bind PersistedAgentState.registration = some registration ∧
    registration.registrationId = pending.registrationId ∧ registration.agentId = pending.agentId

/-- The messages under way in a session speak of its registration, and a commit is under way only if
    the registration is in the state file. -/
structure Session.Backed (store : Option PersistedAgentState) (session : Session) : Prop where
  fresh : session.stage = .awaitsRequest → session.pending = none
  prepared : ∀ registrationId agentId, .prepared registrationId agentId ∈ session.toAgent →
    session.pending = some ⟨registrationId, agentId⟩
  commits : ∀ registrationId, .commit registrationId ∈ session.toServer →
    ∃ pending, session.pending = some pending ∧ pending.registrationId = registrationId ∧
      Stored store pending

/-- The registration of a session is the one the Agent has built. -/
def Matches (sessions : Table Nat Session) (id : Nat) (registration : Registration) : Prop :=
  ∃ session, sessions.get id = some session ∧
    session.pending = some ⟨registration.registrationId, registration.agentId⟩

/-- What the Agent knows at each point. -/
def Process.Backed (identity : NoiseIdentity) (store : Option PersistedAgentState)
    (sessions : Table Nat Session) : Process → Prop
  | .stopped => True
  | .saveIdentity => store = none
  | .connecting state => store = some state
  | .registering state | .awaitsPrepared state _ =>
    store = some state ∧ state.stage ≠ .registered
  | .savePending id registration =>
    registration.identity = identity ∧ Matches sessions id registration ∧
      ∀ pending, Stored store pending →
        pending = ⟨registration.registrationId, registration.agentId⟩
  | .sendCommit id registration =>
    store = some (.registrationPending registration) ∧ Matches sessions id registration
  | .awaitsCommitted _ registration | .saveRegistered registration =>
    store = some (.registrationPending registration)
  | .running registration => store = some (.registered registration)

structure World.Inv (identity : NoiseIdentity) (w : World) : Prop where
  owned : ∀ state, w.store = some state → state.identity = identity
  sessions : ∀ id session, w.sessions.get id = some session → session.Backed w.store
  process : w.process.Backed identity w.store w.sessions
  committed : ∀ id row, w.db.registrations.rows.get id = some row →
    row.agentPublicKey = identity.publicKey → row.status = .committed →
      Stored w.store ⟨id, row.reservedAgentId⟩

variable {identity : NoiseIdentity} {sessions : Table Nat Session}

/-- A session moves on and keeps its registration. -/
def Session.Continues (before after : Session) : Prop :=
  ∀ pending, before.pending = some pending → after.pending = some pending

theorem Matches.insert {id id' : Nat} {registration : Registration} {before after : Session}
    (h : Matches sessions id registration) (hbefore : sessions.get id' = some before)
    (hc : before.Continues after) :
    Matches (sessions.insert id' after) id registration := by
  obtain ⟨session, hsession, hpending⟩ := h
  unfold Matches
  rw [Table.get_insert]
  by_cases hid : id = id'
  · rw [if_pos hid]
    rw [hid, hbefore] at hsession
    cases hsession
    exact ⟨after, rfl, hc _ hpending⟩
  · rw [if_neg hid]
    exact ⟨session, hsession, hpending⟩

theorem Process.Backed.insert {store : Option PersistedAgentState} {process : Process} {id : Nat}
    {before after : Session} (h : process.Backed identity store sessions)
    (hbefore : sessions.get id = some before) (hc : before.Continues after) :
    process.Backed identity store (sessions.insert id after) := by
  cases process with
  | stopped | saveIdentity | connecting _ | registering _ | awaitsPrepared _ _
  | awaitsCommitted _ _ | saveRegistered _ | running _ => exact h
  | savePending => exact ⟨h.1, h.2.1.insert hbefore hc, h.2.2⟩
  | sendCommit => exact ⟨h.1, h.2.insert hbefore hc⟩

namespace World.Inv

variable {w : World} {process : Process} {id : Nat} {session : Session}
  {state : PersistedAgentState} {registration : Registration}

/-- The Agent's program goes on; nothing else has changed. -/
theorem goTo (h : w.Inv identity) (hp : process.Backed identity w.store w.sessions) :
    Inv identity { w with process } :=
  ⟨h.owned, h.sessions, hp, h.committed⟩

/-- A session begins or goes on. -/
theorem addSession (h : w.Inv identity) (hsession : session.Backed w.store)
    (hp : process.Backed identity w.store (w.sessions.insert id session)) :
    Inv identity { w with process, sessions := w.sessions.insert id session } := by
  refine ⟨h.owned, fun id' session' hsession' => ?_, hp, h.committed⟩
  have hget := (Table.get_insert w.sessions id id' session).symm.trans hsession'
  split at hget
  · cases hget
    exact hsession
  · exact h.sessions id' session' hget

theorem setSession (h : w.Inv identity) {before after : Session}
    (hbefore : w.sessions.get id = some before) (hc : before.Continues after)
    (hafter : after.Backed w.store) :
    Inv identity { w with sessions := w.sessions.insert id after } :=
  h.addSession hafter (h.process.insert hbefore hc)

/-- A transaction: the registrations it commits for the Agent's key are in the state file. -/
theorem setDb (h : w.Inv identity) {db : ServerDatabase}
    (hdb : ∀ id row, db.registrations.rows.get id = some row →
      row.agentPublicKey = identity.publicKey → row.status = .committed →
        w.db.registrations.rows.get id = some row ∨ Stored w.store ⟨id, row.reservedAgentId⟩) :
    Inv identity { w with db } := by
  refine ⟨h.owned, h.sessions, h.process, fun id row hrow hkey hcommitted => ?_⟩
  rcases hdb id row hrow hkey hcommitted with hold | hstored
  · exact h.committed id row hold hkey hcommitted
  · exact hstored

/-- **A save**: the state file keeps the ids it has. -/
theorem save (h : w.Inv identity) (hidentity : state.identity = identity)
    (hkeeps : ∀ pending, Stored w.store pending → Stored (some state) pending)
    (hp : process.Backed identity (some state) w.sessions) :
    Inv identity { w with store := some state, process } where
  owned := by
    intro state' hstate'
    cases hstate'
    exact hidentity
  sessions := by
    intro id session hsession
    have hb := h.sessions id session hsession
    refine ⟨hb.fresh, hb.prepared, fun registrationId hcommit => ?_⟩
    obtain ⟨pending, hpending, hid, hstored⟩ := hb.commits registrationId hcommit
    exact ⟨pending, hpending, hid, hkeeps pending hstored⟩
  process := hp
  committed := fun id row hrow hkey hcommitted =>
    hkeeps _ (h.committed id row hrow hkey hcommitted)

/-! ## 3. The steps -/

theorem load (h : w.Inv identity) : Inv identity w.load := by
  unfold World.load
  split
  · rename_i hstore
    exact h.goTo hstore
  · rename_i state hstore
    split
    · rename_i hstage
      exact h.goTo ⟨hstore, by rw [hstage]; decide⟩
    · exact h.goTo hstore
    · exact h.goTo hstore

theorem connect (h : w.Inv identity) (hstore : w.store = some state) :
    Inv identity (w.connect identity state) := by
  unfold World.connect
  split
  · exact h.goTo hstore
  · exact h.goTo hstore
  · exact h.goTo ⟨hstore, by simp [PersistedAgentState.stage]⟩
  · exact h.goTo ⟨hstore, by simp [PersistedAgentState.stage]⟩
  · exact h.goTo trivial

/-- What a verified answer says of the ids in the state file. -/
theorem stored_eq_of_verified (hstage : state.stage ≠ .registered)
    (hverified : ¬ ((state.stage = .registrationPending) &&
      !verifySamePending state (.registrationPending registration)) = true)
    {pending : PendingAgentRegistration} (hstored : Stored (some state) pending) :
    pending = ⟨registration.registrationId, registration.agentId⟩ := by
  obtain ⟨old, hold, hid, hagent⟩ := hstored
  cases state with
  | identityPrepared => cases hold
  | registered => exact absurd rfl hstage
  | registrationPending stored =>
    obtain rfl : stored = old := Option.some.inj hold
    simp only [PersistedAgentState.stage, decide_true, Bool.true_and, Bool.not_eq_true',
      Bool.not_eq_false, verifySamePending, PersistedAgentState.registration, Option.map_some,
      Option.some.injEq, Bool.and_eq_true, decide_eq_true_eq] at hverified
    obtain ⟨⟨⟨hagent', -⟩, -⟩, hid'⟩ := hverified
    cases pending
    simp only [PendingAgentRegistration.mk.injEq]
    exact ⟨hid.symm.trans hid', hagent.symm.trans hagent'⟩

section

variable (h : w.Inv identity)
include h

section

variable (hsession : w.sessions.get id = some session)
include hsession

/-- The Agent reads a message. -/
theorem read {message : ServerMessage} {rest : List ServerMessage}
    (hmessages : session.toAgent = message :: rest) : Inv identity
      { w with sessions := w.sessions.insert id { session with toAgent := rest } } := by
  have hb := h.sessions id session hsession
  refine h.setSession hsession (fun _ hp => hp) ⟨hb.fresh, fun r a hm => ?_, hb.commits⟩
  exact hb.prepared r a (by rw [hmessages]; exact mem_cons_of_mem _ hm)

theorem receivePrepared (hstore : w.store = some state) (hstage : state.stage ≠ .registered) :
    Inv identity (w.receivePrepared state id session) := by
  have hb := h.sessions id session hsession
  unfold World.receivePrepared
  split
  · exact h
  · rename_i registrationId agentId rest hmessages
    have hpending : session.pending = some ⟨registrationId, agentId⟩ :=
      hb.prepared _ _ (by rw [hmessages]; exact mem_cons_self)
    dsimp only
    split
    · exact (h.read hsession hmessages).goTo trivial
    · rename_i hverified
      refine (h.read hsession hmessages).goTo
        ⟨h.owned state hstore, ⟨{ session with toAgent := rest }, ?_, hpending⟩, ?_⟩
      · exact (Table.get_insert _ _ _ _).trans (if_pos rfl)
      · intro pending hstored
        rw [hstore] at hstored
        exact stored_eq_of_verified hstage hverified hstored
  · exact h.goTo trivial

theorem receiveCommitted (hstore : w.store = some (.registrationPending registration)) :
    Inv identity (w.receiveCommitted id session registration) := by
  unfold World.receiveCommitted
  split
  · exact h
  · rename_i registrationId rest hmessages
    split
    · exact (h.read hsession hmessages).goTo hstore
    · exact h.goTo trivial
  · exact h.goTo trivial

theorem sendCommit (hstore : w.store = some (.registrationPending registration))
    (hpending : session.pending = some ⟨registration.registrationId, registration.agentId⟩) :
    Inv identity { w with
      process := .awaitsCommitted id registration
      sessions := w.sessions.insert id
        { session with
          toServer := session.toServer ++ [.commit registration.registrationId] } } := by
  have hb := h.sessions id session hsession
  have hsent : Inv identity { w with
      sessions := w.sessions.insert id
        { session with
          toServer := session.toServer ++ [.commit registration.registrationId] } } := by
    refine h.setSession hsession (fun _ hp => hp) ⟨hb.fresh, hb.prepared, fun r hm => ?_⟩
    rcases mem_append.mp hm with hold | hnew
    · exact hb.commits r hold
    · obtain rfl : r = registration.registrationId := by simpa using hnew
      refine ⟨_, hpending, rfl, registration, ?_, rfl, rfl⟩
      rw [hstore]
      rfl
  exact hsent.goTo hstore

/-- A session that ends has read one message more and sends no registration. -/
theorem close {message : AgentMessage} {rest : List AgentMessage}
    (hmessages : session.toServer = message :: rest) {answer : ServerMessage}
    (ha : ∀ r a, answer ≠ .prepared r a) :
    Inv identity { w with
      sessions := w.sessions.insert id
        { session with
          stage := .over, toServer := rest, toAgent := session.toAgent ++ [answer] } } := by
  have hb := h.sessions id session hsession
  refine h.setSession hsession (fun _ hp => hp)
    ⟨nofun, fun r a hm => ?_, fun r hm => ?_⟩
  · rcases mem_append.mp hm with hold | hnew
    · exact hb.prepared r a hold
    · exact absurd (mem_singleton.mp hnew).symm (ha r a)
  · exact hb.commits r (by rw [hmessages]; exact mem_cons_of_mem _ hm)

theorem reject {message : AgentMessage} {rest : List AgentMessage}
    (hmessages : session.toServer = message :: rest) :
    Inv identity (w.reject id { session with toServer := rest }) := h.close hsession hmessages nofun

theorem prepare (now : Nat) (drawn : RegistrationId × String) :
    Inv identity (w.prepare identity id session now drawn) := by
  have hb := h.sessions id session hsession
  unfold World.prepare
  split
  · rename_i tokenId psk rest hstage hmessages
    split
    · exact h.reject hsession hmessages
    · split
      · exact h.reject hsession hmessages
      · rename_i db pending hok
        have hnone := hb.fresh hstage
        have hdb : Inv identity { w with db } := by
          refine h.setDb fun id' row hrow _ hcommitted => .inl ?_
          have happly : (Transaction.prepare tokenId psk identity.publicKey drawn).apply w.db now =
              db := by simp only [Transaction.apply, hok]
          rw [← happly] at hrow
          rcases committed_apply hrow hcommitted with hold | ⟨_, _, ht, -⟩
          · exact hold
          · cases ht
        refine hdb.setSession hsession (fun p hp => ?_)
          ⟨fun hstage => (by cases hstage), fun r a hm => ?_, fun r hm => ?_⟩
        · rw [hnone] at hp
          cases hp
        · rcases mem_append.mp hm with hold | hnew
          · have hsome := hb.prepared r a hold
            rw [hnone] at hsome
            cases hsome
          · obtain ⟨rfl, rfl⟩ : r = pending.registrationId ∧ a = pending.agentId := by
              simpa using hnew
            rfl
        · obtain ⟨p, hp, -⟩ := hb.commits r (by rw [hmessages]; exact mem_cons_of_mem _ hm)
          rw [hnone] at hp
          cases hp
  · rename_i hmessages
    exact h.reject hsession hmessages
  · exact h

/-- **The Server commits**: the commit it has read was sent with the ids in the state file. -/
theorem commit (now : Nat) : Inv identity (w.commit id session now) := by
  have hb := h.sessions id session hsession
  unfold World.commit
  split
  · rename_i pending registrationId rest hstage hpending hmessages
    split
    · exact h.reject hsession hmessages
    · split
      · exact h.reject hsession hmessages
      · rename_i db hok
        have hstored : Stored w.store pending := by
          obtain ⟨p, hp, -, hstored⟩ :=
            hb.commits registrationId (by rw [hmessages]; exact mem_cons_self)
          rw [hpending] at hp
          cases hp
          exact hstored
        have hdb : Inv identity { w with db } := by
          refine h.setDb fun id' row hrow _ hcommitted => ?_
          have happly : (Transaction.commit pending).apply w.db now = db := by
            simp only [Transaction.apply, hok]
          rw [← happly] at hrow
          rcases committed_apply hrow hcommitted with hold | ⟨p, _, ht, rfl, -, -, hagent⟩
          · exact .inl hold
          · cases ht
            rw [hagent]
            exact .inr hstored
        exact hdb.close hsession hmessages fun _ _ ha => by cases ha
  · rename_i hmessages _
    exact h.reject hsession hmessages
  · exact h

end

theorem other {now : Nat} {t : Transaction} (hother : concerns w.db identity.publicKey t = false) :
    Inv identity { w with db := t.apply w.db now } := by
  refine h.setDb fun id row hrow hkey hcommitted => .inl ?_
  rcases committed_apply hrow hcommitted with hold | ⟨pending, row', rfl, rfl, hrow', hkey', -⟩
  · exact hold
  · -- the commit of a registration with the Agent's key would concern it
    rw [concerns, hrow'] at hother
    simp [hkey'.trans hkey] at hother

/-- **Every step keeps the invariant.** -/
theorem step (a : Act) : Inv identity (w.step identity a) := by
  have hp := h.process
  cases a <;> simp only [World.step]
  case load =>
    split
    · exact h.load
    · exact h
  case saveIdentity =>
    split
    · rename_i hprocess
      rw [hprocess] at hp
      refine h.save rfl (fun pending hstored => ?_) ⟨rfl, by simp [PersistedAgentState.stage]⟩
      obtain ⟨registration, hregistration, -⟩ := hstored
      rw [show w.store = none from hp] at hregistration
      cases hregistration
    · exact h
  case connect =>
    split
    · rename_i hprocess
      rw [hprocess] at hp
      exact h.connect hp
    · exact h
  case openSession =>
    split
    · rename_i hprocess
      rw [hprocess] at hp
      split
      · exact h.addSession ⟨fun _ => rfl, nofun,
          fun r hm => (by simp at hm)⟩ hp
      · exact h
    · exact h
  case receivePrepared =>
    split
    · rename_i hprocess
      rw [hprocess] at hp
      split
      · rename_i hsession
        exact h.receivePrepared hsession hp.1 hp.2
      · exact h
    · exact h
  case savePending =>
    split
    · rename_i id registration hprocess
      rw [hprocess] at hp
      obtain ⟨hidentity, hmatches, hsame⟩ := hp
      refine h.save hidentity (fun pending hstored => ?_) ⟨rfl, hmatches⟩
      rw [hsame pending hstored]
      exact ⟨registration, rfl, rfl, rfl⟩
    · exact h
  case sendCommit =>
    split
    · rename_i id registration hprocess
      rw [hprocess] at hp
      obtain ⟨hstore, session', hsession', hpending⟩ := hp
      split
      · rename_i session hsession
        rw [hsession] at hsession'
        cases hsession'
        exact h.sendCommit hsession hstore hpending
      · exact h
    · exact h
  case receiveCommitted =>
    split
    · rename_i hprocess
      rw [hprocess] at hp
      split
      · rename_i hsession
        exact h.receiveCommitted hsession hp
      · exact h
    · exact h
  case saveRegistered =>
    split
    · rename_i registration hprocess
      rw [hprocess] at hp
      have hidentity : registration.identity = identity := h.owned _ hp
      refine h.save hidentity (fun pending hstored => ?_) rfl
      rw [show w.store = _ from hp] at hstored
      exact hstored
    · exact h
  case saveServerKeys =>
    split
    · rename_i registration hprocess
      rw [hprocess] at hp
      have hidentity : registration.identity = identity := h.owned _ hp
      refine h.save hidentity (fun pending hstored => ?_) rfl
      rw [show w.store = _ from hp] at hstored
      obtain ⟨registration', hregistration', hid, hagent⟩ := hstored
      obtain rfl : registration = registration' := Option.some.inj hregistration'
      exact ⟨_, rfl, hid, hagent⟩
    · exact h
  case stop => exact h.goTo trivial
  case prepare id now drawn =>
    split
    · rename_i hsession
      exact h.prepare hsession now drawn
    · exact h
  case commit id now =>
    split
    · rename_i hsession
      exact h.commit hsession now
    · exact h
  case close id =>
    split
    · rename_i session hsession
      have hb := h.sessions id session hsession
      exact h.setSession hsession (fun _ hp => hp)
        ⟨nofun, hb.prepared, hb.commits⟩
    · exact h
  case other =>
    split
    · exact h
    · rename_i hother
      exact h.other (Bool.eq_false_iff.mpr hother)

end

end World.Inv

/-! ## 4. Every run -/

/-- A registration that is committed for the Agent's key is in the state file, pending or registered,
    with the key pair and both ids. -/
def World.Recoverable (identity : NoiseIdentity) (w : World) : Prop :=
  ∀ id row, w.db.registrations.rows.get id = some row →
    row.agentPublicKey = identity.publicKey → row.status = .committed →
      ∃ registration, (w.store = some (.registrationPending registration) ∨
          w.store = some (.registered registration)) ∧
        registration.identity = identity ∧ registration.agentId = row.reservedAgentId ∧
          registration.registrationId = id

theorem World.Inv.recoverable {w : World} (h : w.Inv identity) : w.Recoverable identity := by
  intro id row hrow hkey hcommitted
  obtain ⟨registration, hregistration, hid, hagent⟩ := h.committed id row hrow hkey hcommitted
  cases hstore : w.store with
  | none =>
    rw [hstore] at hregistration
    cases hregistration
  | some state =>
    have hidentity := h.owned state hstore
    rw [hstore] at hregistration
    cases state with
    | identityPrepared => cases hregistration
    | registrationPending stored =>
      obtain rfl : stored = registration := Option.some.inj hregistration
      exact ⟨stored, .inl rfl, hidentity, hagent, hid⟩
    | registered stored =>
      obtain rfl : stored = registration := Option.some.inj hregistration
      exact ⟨stored, .inr rfl, hidentity, hagent, hid⟩

theorem World.Inv.initial : World.Inv identity {} :=
  ⟨fun _ h => (by cases h), fun _ _ h => (by cases h), trivial, fun _ _ h => (by cases h)⟩

theorem World.inv_throughout (identity : NoiseIdentity) (acts : List Act) :
    Throughout (World.step identity) (World.Inv identity) {} acts :=
  throughout_of_invariant (fun _ a (hi : World.Inv identity _) _ => hi.step a) (fun _ hi => hi)
    World.Inv.initial (along_trivial acts _)

/-- **No token is used up without an identity**: in every run of the Agent and the Server, with
    crashes, lost connections, sessions that go on without the Agent and retries with any token,
    whatever the Server has committed for the Agent's key is in the Agent's state file. -/
theorem committed_registration_stored (identity : NoiseIdentity) (acts : List Act) :
    Throughout (World.step identity) (World.Recoverable identity) {} acts :=
  fun past hp => (World.inv_throughout identity acts past hp).recoverable

/-- **The Agent writes ahead**: whatever crashes or is lost, a commit under way, in whichever
    session, is for the registration the session has prepared, and both its ids are in the state
    file. -/
theorem commits_written_ahead (identity : NoiseIdentity) (acts : List Act) :
    Throughout (World.step identity) (fun w => ∀ id session registrationId,
      w.sessions.get id = some session → .commit registrationId ∈ session.toServer →
        ∃ pending, session.pending = some pending ∧ pending.registrationId = registrationId ∧
          Stored w.store pending) {} acts := by
  intro past hp id session registrationId hs
  exact ((World.inv_throughout identity acts past hp).sessions id session hs).commits registrationId

/-- The Agent is lost after its commit is sent, and the Server commits. -/
def lostBeforeCommitted (identity : NoiseIdentity) : World :=
  run (World.step identity) {}
    [.other 0 (.insertToken "token" (.replicate 32 7) none none), .load, .saveIdentity,
      .openSession 0 1 "token" (.replicate 32 7) (.replicate 32 9),
      .prepare 0 1 (.replicate 16 1, "agent-1"), .receivePrepared, .savePending, .sendCommit, .stop,
      .commit 0 2]

example :
    (lostBeforeCommitted (identityOf 1)).store =
      some (.pendingOf "agent-1" (identityOf 1) (.replicate 32 9) (.replicate 16 1)) ∧
    ((lostBeforeCommitted (identityOf 1)).db.registrations.rows.get
      (.replicate 16 1)).any (·.status = .committed) = true := by
  decide +kernel

end Smalux.Enrollment
