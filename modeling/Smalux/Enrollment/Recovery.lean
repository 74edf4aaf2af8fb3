/-
  Subject:   `establish_initial` run to its end, without crashes and lost messages
             (client/connection.rs).

  The Server answers at the times given; nobody else changes the database in between.

  * `Origin` -- Agents come from committed registrations (with fresh UUIDs: from one each);
  * **`pending_registration_recovered_iff`** -- exactly when an Agent that was left pending becomes
    registered.
-/
import Smalux.Enrollment.Protocol

namespace Smalux.Enrollment

open Lib Rotation Agent Server ServerDatabase Table

/-! ## 1. The program -/

inductive ClientError where
  | registrationTokenRequired
  /-- no handshake: an unknown Server key, or no key for the token -/
  | handshake
  | agentNotAuthorized
  /-- the driver of the session has ended -/
  | closed
  /-- the Server turns the registration down -/
  | rejected
  | inconsistentPendingRegistration
  | noise (error : NoiseError)
  | stateStore (text : String)
  deriving DecidableEq, Repr

/-- When the Server resolves the token's key, prepares and commits. -/
structure Times where
  resolve : Nat
  prepare : Nat
  commit : Nat

/-- What the driver of a session that the Server turns down comes to first: the rejection, which ends
    it, or the requests of `verify_authorized_session` (a Ping, then the statistics every 10 ms). -/
inductive DriverOrder where
  | requests
  | rejection
  deriving DecidableEq, Repr

/-- `verify_authorized_session`: the rejection is an event of the driver, but a driver that has read
    it answers no request. -/
def verifyAuthorizedSession (order : DriverOrder) :
    PersistedAgentAuthorization → Except ClientError Unit
  | .authorized _ => .ok ()
  | .revoked | .unauthorized =>
    match order with
    | .requests => .error .agentNotAuthorized
    | .rejection => .error .closed

section Program

variable (digest : NoisePublicKey → KeyId) (ring : ServerKeyRing) (db : ServerDatabase)
  (order : DriverOrder)

/-- The pinned keys after a connection: a pending key that was used is promoted. -/
def promoteConnected (key : NoisePublicKey) (registration : Registration) :
    Except ClientError Registration :=
  if registration.serverKeys.state.pending = some key then
    match registration.serverKeys.state.rotationId with
    | none => .error (.noise .noPendingRotation)
    | some rotationId =>
      match registration.serverKeys.promotePending rotationId with
      | .error error => .error (.noise error)
      | .ok serverKeys => .ok { registration with serverKeys }
  else .ok registration

/-- `connect_registered`: the state that is in the state file afterwards. -/
def connectRegistered (state : PersistedAgentState) : Except ClientError PersistedAgentState :=
  match connectWithCandidates digest ring state.serverKeyCandidates with
  | none => .error .handshake
  | some key => do
    verifyAuthorizedSession order (db.findAgentAuthorization state.identity.publicKey)
    match state with
    | .registrationPending registration =>
      (promoteConnected key registration).map .registrationPending
    | .registered registration => (promoteConnected key registration).map .registered
    | .identityPrepared identity => .ok (.identityPrepared identity)

/-- `register`: the state in the state file and the tables afterwards. -/
def register (token : Option (String × RegistrationPsk)) (times : Times)
    (drawn : RegistrationId × String) (state : PersistedAgentState) :
    Except ClientError (PersistedAgentState × ServerDatabase) :=
  match token with
  | none => .error .registrationTokenRequired
  | some (tokenId, psk) =>
    if db.loadActiveRegistrationPsk times.resolve tokenId ≠ some psk then .error .handshake
    else
      match db.prepareAgentRegistration times.prepare tokenId psk state.identity.publicKey drawn with
      | .error _ => .error .rejected
      | .ok (db, pending) =>
        let pendingState := PersistedAgentState.pendingOf pending.agentId state.identity
          ring.state.current.publicKey pending.registrationId
        if state.stage = .registrationPending && !verifySamePending state pendingState then
          .error .inconsistentPendingRegistration
        else
          match db.commitAgentRegistration times.commit pending with
          | .error _ => .error .rejected
          | .ok db =>
            match pendingState.registeredFromPending with
            | .error text => .error (.stateStore text)
            | .ok registered => .ok (registered, db)

/-- `establish_initial`. -/
def establishInitial (token : Option (String × RegistrationPsk)) (times : Times)
    (generated : NoiseIdentity) (drawn : RegistrationId × String)
    (store : Option PersistedAgentState) :
    Except ClientError (PersistedAgentState × ServerDatabase) :=
  let state := store.getD (.identityPrepared generated)
  match state.stage with
  | .identityPrepared => register ring db token times drawn state
  | .registrationPending =>
    match connectRegistered digest ring db order state with
    | .ok connected =>
      match connected.registeredFromPending with
      | .error text => .error (.stateStore text)
      | .ok registered => .ok (registered, db)
    | .error .agentNotAuthorized => register ring db token times drawn state
    | .error error => .error error
  | .registered => (connectRegistered digest ring db order state).map (·, db)

end Program

/-! ## 2. Agents and the registrations they come from -/

/-- The UUID drawn for an Agent is not reserved already. -/
def FreshIds (s : Store) (t : Nat × Transaction) : Prop :=
  match t.2 with
  | .prepare _ _ _ drawn => s.db.registrations.rows.findBy (·.reservedAgentId) drawn.2 = none
  | .insertToken _ _ _ _ | .commit _ | .cleanup | .revokeToken _ | .revokeAgent _ => True

/-- Every Agent comes from a committed registration, no two registrations reserve the same id, and a
    token that is not used has no time of use. -/
structure Origin (db : ServerDatabase) : Prop where
  agents : ∀ i agent, db.agents.rows.get i = some agent →
    ∃ id row, db.registrations.rows.get id = some row ∧ row.status = .committed ∧
      row.reservedAgentId = i ∧ row.agentPublicKey = agent.publicKey
  reserved : db.registrations.rows.UniqueBy (·.reservedAgentId)
  unused : ∀ tokenId token, db.tokens.get tokenId = some token → token.status ≠ .used →
    token.usedAt = none

namespace Origin

variable {db db' : ServerDatabase} {now : Nat}

theorem empty : Origin .empty where
  agents := fun _ _ h => by cases h
  reserved := .empty
  unused := fun _ _ h => by cases h

theorem agents_changes (h : Origin db) (hc : Changes db now db') {i : String} {agent : AgentRow}
    (hagent : db'.agents.rows.get i = some agent) :
    ∃ id row, db'.registrations.rows.get id = some row ∧ row.status = .committed ∧
      row.reservedAgentId = i ∧ row.agentPublicKey = agent.publicKey := by
  have hold : ∀ old, db.agents.rows.get i = some old → old.publicKey = agent.publicKey →
      ∃ id row, db'.registrations.rows.get id = some row ∧ row.status = .committed ∧
        row.reservedAgentId = i ∧ row.agentPublicKey = agent.publicKey := by
    intro old hin hkey
    obtain ⟨id, row, hrow, hcommitted, hreserved, hkey'⟩ := h.agents i old hin
    exact ⟨id, row, committed_kept hc hrow hcommitted, hcommitted, hreserved, hkey'.trans hkey⟩
  cases hc with
  | nothing | revokesToken => exact hold agent hagent rfl
  | issues hi | prepares hi | thins hi => exact hold agent (by rw [← hi.agents]; exact hagent) rfl
  | revokesAgent =>
    have hget := (get_modify _ _ _ _).symm.trans hagent
    split at hget
    · obtain ⟨old, hin, rfl⟩ := Option.map_eq_some_iff.mp hget
      exact hold old hin rfl
    · exact hold agent hget rfl
  | @commits pending row _ hrow hsame _ _ hcommit =>
    rw [hcommit.agents, get_insert] at hagent
    split at hagent
    · rename_i hi
      cases hagent
      refine ⟨pending.registrationId,
        { row with
          agentId := some pending.agentId, status := .committed, committedAt := some now },
        ?_, rfl, hi.symm, rfl⟩
      rw [hcommit.registrations]
      refine (get_modify _ _ _ _).trans ?_
      rw [if_pos rfl, hrow]
      rfl
    · exact hold agent hagent rfl

theorem unused_changes (h : Origin db) (hc : Changes db now db') {tokenId : String}
    {token : RegistrationToken} (htoken : db'.tokens.get tokenId = some token)
    (hstatus : token.status ≠ .used) : token.usedAt = none := by
  cases hc with
  | nothing | revokesAgent => exact h.unused _ _ htoken hstatus
  | issues hi =>
    rw [hi.tokens, get_insert] at htoken
    split at htoken
    · cases htoken
      exact hi.unused
    · exact h.unused _ _ htoken hstatus
  | prepares hp | thins hp => exact h.unused _ _ (by rw [← hp.tokens]; exact htoken) hstatus
  | revokesToken hold hactive =>
    have hget := (get_modify _ _ _ _).symm.trans htoken
    split at hget
    · rename_i hsame
      have hnone := h.unused _ _ hold (by rw [hactive]; decide)
      rw [hsame, hold] at hget
      cases hget
      exact hnone
    · exact h.unused _ _ hget hstatus
  | commits _ _ _ _ hcommit =>
    rw [hcommit.tokens, get_modify] at htoken
    split at htoken
    · obtain ⟨old, -, rfl⟩ := Option.map_eq_some_iff.mp htoken
      exact absurd rfl hstatus
    · exact h.unused _ _ htoken hstatus

/-- A registration keeps the id it reserves, and a prepare with a fresh UUID reserves it for one. -/
theorem reserved_apply {s : Store} (h : Origin s.db) {t : Transaction}
    (hfresh : FreshIds s (now, t)) :
    (t.apply s.db now).registrations.rows.UniqueBy (·.reservedAgentId) := by
  have hcomes : ∀ i a, (t.apply s.db now).registrations.rows.get i = some a →
      (∃ a', s.db.registrations.rows.get i = some a' ∧ a'.reservedAgentId = a.reservedAgentId) ∨
        ∃ tokenId psk key drawn, t = .prepare tokenId psk key drawn ∧ drawn.1 = i ∧
          drawn.2 = a.reservedAgentId := by
    intro i a ha
    rcases registrations_apply ha with hold | ⟨_, _, _, _, _, ht, hi, rfl⟩ |
      ⟨_, a', -, -, hold, -, rfl⟩
    · exact .inl ⟨a, hold, rfl⟩
    · exact .inr ⟨_, _, _, _, ht, hi, rfl⟩
    · exact .inl ⟨a', hold, rfl⟩
  intro i j a b ha hb hab
  rcases hcomes i a ha with ⟨a', ha', hra⟩ | ⟨_, _, _, _, rfl, rfl, hra⟩ <;>
    rcases hcomes j b hb with ⟨b', hb', hrb⟩ | ⟨_, _, _, _, ht, rfl, hrb⟩
  · exact h.reserved i j a' b' ha' hb' (hra.trans (hab.trans hrb.symm))
  · subst ht
    exact absurd (hra.trans (hab.trans hrb.symm)) (findBy_eq_none_iff.mp hfresh i a' ha')
  · exact absurd (hrb.trans (hab.symm.trans hra.symm)) (findBy_eq_none_iff.mp hfresh j b' hb')
  · cases ht
    rfl

theorem run (past : List (Nat × Transaction)) (hfresh : Along Store.step FreshIds {} past) :
    Origin (Lib.run Store.step {} past).db := by
  have hstep : ∀ (s : Store) (t : Nat × Transaction), Origin s.db → FreshIds s t →
      Origin (s.step t).db := by
    rintro s ⟨now, t⟩ hi hf
    have hc := changes_apply s.db now t
    exact ⟨fun _ _ hagent => hi.agents_changes hc hagent, hi.reserved_apply hf,
      fun _ _ htoken hstatus => hi.unused_changes hc htoken hstatus⟩
  exact run_invariant hstep past {} Origin.empty hfresh

end Origin

/-! ## 3. When a pending registration is recovered -/

/-- The Agent has the token of its registration, and the token is neither revoked nor expired. -/
structure SameToken (db : ServerDatabase) (tokenId : String) (psk : RegistrationPsk)
    (registrationId : RegistrationId) (later : Nat) : Prop where
  token : ∃ token, db.tokens.get tokenId = some token ∧ token.psk = psk ∧
    token.status ≠ .revoked ∧ isOver token.expiresAt later = false
  same : ∀ row, db.registrations.rows.get registrationId = some row → row.tokenId = tokenId

/-- The registration of the Agent's state file is stored, prepared and not expired by then. -/
def StillPrepared (db : ServerDatabase) (registration : Registration) (later : Nat) : Prop :=
  ∃ row, db.registrations.rows.get registration.registrationId = some row ∧
    row.agentPublicKey = registration.identity.publicKey ∧
      row.reservedAgentId = registration.agentId ∧ row.status = .prepared ∧
        isOver row.expiresAt later = false

/-- The Server accepts the pinned key, and the Agent is authorized already or its registration can be
    taken up again under the same Server key, once the Agent has seen the rejection. -/
def CanRecover (digest : NoisePublicKey → KeyId) (ring : ServerKeyRing) (db : ServerDatabase)
    (order : DriverOrder) (registration : Registration) (serverKey : NoisePublicKey)
    (later : Nat) : Prop :=
  ring.accepts digest serverKey = true ∧
    ((∃ agentId, db.findAgentAuthorization registration.identity.publicKey = .authorized agentId) ∨
      order = .requests ∧ ring.state.current.publicKey = serverKey ∧
        StillPrepared db registration later)

section Recovery

variable {db db' : ServerDatabase} {registration : Registration} {tokenId : String}
  {psk : RegistrationPsk} {later : Nat}

/-- The token of a registration that is still prepared is usable. -/
theorem usable_of_prepared (hinv : Server.Inv db) (horigin : Origin db)
    (ht : SameToken db tokenId psk registration.registrationId later)
    (hprepared : StillPrepared db registration later) :
    ∃ token, db.tokens.get tokenId = some token ∧ token.psk = psk ∧
      ∀ now ≤ later, token.isUsable now = true := by
  obtain ⟨row, hrow, -, -, hstatus, -⟩ := hprepared
  obtain ⟨token, htoken, hpsk, hrevoked, hover⟩ := ht.token
  have hfor := ht.same row hrow
  have hunused : token.status ≠ .used := by
    intro hused
    obtain ⟨id, other, hother, hfor', hcommitted⟩ := hinv.used tokenId token htoken hused
    have hid := db.registrations.uniqueToken _ _ _ _ hother hrow (hfor'.trans hfor.symm)
    rw [hid, hrow] at hother
    cases hother
    rw [hstatus] at hcommitted
    cases hcommitted
  have hactive : token.status = .active := by
    cases hs : token.status with
    | active => rfl
    | used => exact absurd hs hunused
    | revoked => exact absurd hs hrevoked
  refine ⟨token, htoken, hpsk, fun now hnow => ?_⟩
  simp [RegistrationToken.isUsable, hactive, horigin.unused tokenId token htoken hunused,
    isOver_mono hnow hover]

/-- The Agent of a registration that is still prepared is not there yet. -/
theorem agent_free_of_prepared (horigin : Origin db)
    (hprepared : StillPrepared db registration later) :
    db.agents.rows.get registration.agentId = none ∧
      db.agents.rows.findBy (·.publicKey) registration.identity.publicKey = none := by
  obtain ⟨row, hrow, hkey, hreserved, hstatus, -⟩ := hprepared
  have hnot : ∀ {id other}, db.registrations.rows.get id = some other → id = registration.registrationId →
      other.status = .committed → False := by
    intro id other hother hid hcommitted
    rw [hid, hrow] at hother
    cases hother
    rw [hstatus] at hcommitted
    cases hcommitted
  constructor
  · cases hagent : db.agents.rows.get registration.agentId with
    | none => rfl
    | some =>
      obtain ⟨id, other, hother, hcommitted, hreserved', -⟩ := horigin.agents _ _ hagent
      exact (hnot hother (horigin.reserved _ _ _ _ hother hrow
        (hreserved'.trans hreserved.symm)) hcommitted).elim
  · rw [findBy_eq_none_iff]
    intro i agent hagent hsame
    obtain ⟨id, other, hother, hcommitted, -, hkey'⟩ := horigin.agents _ _ hagent
    exact hnot hother (db.registrations.uniqueKey _ _ _ _ hother hrow
      (hkey'.trans (hsame.trans hkey.symm))) hcommitted

/-- **Prepared and committed once more.** -/
theorem commit_of_prepared (hinv : Server.Inv db) (horigin : Origin db)
    (ht : SameToken db tokenId psk registration.registrationId later)
    (hprepared : StillPrepared db registration later) : ∃ db', db.commitAgentRegistration later
      ⟨registration.registrationId, registration.agentId⟩ = .ok db' := by
  obtain ⟨token, htoken, -, husable⟩ := usable_of_prepared hinv horigin ht hprepared
  obtain ⟨hid, hfree⟩ := agent_free_of_prepared horigin hprepared
  obtain ⟨row, hrow, hkey, hreserved, hstatus, hover⟩ := hprepared
  have hagents : ∃ agents, db.agents.insert row.reservedAgentId
      ⟨row.agentName, row.agentPublicKey, .active, none⟩ = .ok agents := by
    refine ⟨_, dif_pos ⟨?_, ?_⟩⟩
    · rw [hreserved]
      exact hid
    · rw [hkey]
      exact hfree
  obtain ⟨agents, hagents⟩ := hagents
  have hwrite : ∃ db', db.writeCommit later ⟨registration.registrationId, registration.agentId⟩ row =
      .ok db' := by
    rw [writeCommit, hagents]
    exact ⟨_, rfl⟩
  obtain ⟨db', hwrite⟩ := hwrite
  refine ⟨db', ?_⟩
  simp [commitAgentRegistration, checkRegistration, hrow, hreserved, bind, Except.bind, hstatus,
    checkCommittable, hover, checkToken, ht.same row hrow, htoken, husable later (Nat.le_refl
    later), checkReservedAgent, hid, hwrite]

/-- The registration an Agent was left with: the Server's key is pinned, and no rotation is known. -/
def leftPending (agentId : String) (identity : NoiseIdentity) (serverKey : NoisePublicKey)
    (registrationId : RegistrationId) : Registration :=
  ⟨agentId, identity, .new serverKey, registrationId⟩

/-- A run ended with a registered Agent. -/
def EndsRegistered (result : Except ClientError (PersistedAgentState × ServerDatabase)) : Prop :=
  ∃ state db, result = .ok (state, db) ∧ state.stage = .registered

variable {digest : NoisePublicKey → KeyId} {ring : ServerKeyRing} {serverKey : NoisePublicKey}
  {times : Times} {drawn : RegistrationId × String}
  (hpinned : registration.serverKeys = .new serverKey)

include hpinned

variable (ring) in
theorem verifySamePending_iff (pending : PendingAgentRegistration) :
    verifySamePending (.registrationPending registration) (.pendingOf pending.agentId
        registration.identity ring.state.current.publicKey pending.registrationId) = true ↔
      pending = ⟨registration.registrationId, registration.agentId⟩ ∧
        ring.state.current.publicKey = serverKey := by
  obtain ⟨agentId, identity, serverKeys, registrationId⟩ := registration
  obtain ⟨registrationId', agentId'⟩ := pending
  cases hpinned
  simp only [verifySamePending, PersistedAgentState.registration, PersistedAgentState.pendingOf,
    PersistedAgentState.identity, PinnedServerKeys.new, Option.map_some, Option.some.injEq,
    Bool.and_eq_true, decide_eq_true_eq, PinnedServerKeys.mk.injEq,
    PinnedServerKeysSnapshot.mk.injEq, PendingAgentRegistration.mk.injEq]
  constructor
  · rintro ⟨⟨⟨rfl, -⟩, hkey, -⟩, rfl⟩
    exact ⟨⟨rfl, rfl⟩, hkey.symm⟩
  · rintro ⟨⟨rfl, rfl⟩, rfl⟩
    exact ⟨⟨⟨rfl, trivial⟩, rfl, trivial, trivial, trivial⟩, rfl⟩

/-- The registration is taken up again. -/
theorem register_of_prepared (hinv : Server.Inv db) (horigin : Origin db)
    (hresolve : times.resolve ≤ times.commit) (hprepare : times.prepare ≤ times.commit)
    (ht : SameToken db tokenId psk registration.registrationId times.commit)
    (hkey : ring.state.current.publicKey = serverKey)
    (hprepared : StillPrepared db registration times.commit) :
    EndsRegistered (register ring db (some (tokenId, psk)) times drawn
      (.registrationPending registration)) := by
  obtain ⟨token, htoken, hpsk, husable⟩ := usable_of_prepared hinv horigin ht hprepared
  obtain ⟨db', hcommit⟩ := commit_of_prepared hinv horigin ht hprepared
  obtain ⟨row, hrow, hrowKey, hreserved, hstatus, hover⟩ := hprepared
  have hresolved : db.loadActiveRegistrationPsk times.resolve tokenId = some psk := by
    rw [loadActiveRegistrationPsk, htoken]
    simp [husable _ hresolve, hpsk]
  have hbound : Bound db tokenId psk registration.identity.publicKey
      ⟨registration.registrationId, registration.agentId⟩ times.prepare :=
    ⟨⟨token, htoken, hpsk⟩, row, hrow, hreserved, ht.same row hrow, hrowKey,
      by rw [hstatus]; decide, isOver_mono hprepare hover⟩
  have hprepare := hbound.prepare (fun token' htoken' => by
    rw [htoken] at htoken'
    cases htoken'
    exact husable _ hprepare) drawn
  have hverify := (verifySamePending_iff ring hpinned _).mpr ⟨rfl, hkey⟩
  refine ⟨.registered { registration with serverKeys := .new ring.state.current.publicKey },
    db', ?_, rfl⟩
  simp only [register, hresolved, ne_eq, not_true_eq_false, ↓reduceIte, PersistedAgentState.identity,
    hprepare, hverify, Bool.not_true, Bool.and_false, Bool.false_eq_true, hcommit]
  rfl

/-- Only this can be taken up: a new registration has another id than the one in the state file. -/
theorem prepared_of_register (hinv : Server.Inv db)
    (hdrawn : drawn.1 ≠ registration.registrationId)
    (h : EndsRegistered (register ring db (some (tokenId, psk)) times drawn
      (.registrationPending registration))) :
    ring.state.current.publicKey = serverKey ∧ StillPrepared db registration times.commit := by
  obtain ⟨state, db', hok, -⟩ := h
  simp only [register] at hok
  split at hok
  · cases hok
  · split at hok
    · cases hok
    · rename_i db₁ pending hprepare
      split at hok
      · cases hok
      · rename_i hverified
        split at hok
        · cases hok
        · rename_i db₂ hcommit
          simp only [PersistedAgentState.stage, decide_true, Bool.true_and, Bool.not_eq_true',
            Bool.not_eq_false] at hverified
          obtain ⟨rfl, hkey⟩ := (verifySamePending_iff ring hpinned pending).mp hverified
          refine ⟨hkey, ?_⟩
          obtain ⟨token, htoken, husable, -, ⟨rfl, hreuses⟩ | ⟨hnew, -⟩⟩ := prepare_cases hprepare
          · obtain ⟨row, hrow, hreserved, hfor, hrowKey, -, -⟩ := hreuses.stored
            obtain ⟨row', hrow', -, hcases⟩ := commit_cases hcommit
            rw [hrow] at hrow'
            cases hrow'
            rcases hcases with ⟨hcommitted, -⟩ | ⟨hstatus, hover, -, -⟩
            · -- the token of a committed registration is used
              obtain ⟨token', htoken', hused⟩ := (hinv.committed _ row hrow hcommitted).1
              rw [hfor, htoken] at htoken'
              cases htoken'
              simp [RegistrationToken.isUsable, hused] at husable
            · exact ⟨row, hrow, hrowKey, hreserved, hstatus, hover⟩
          · exact absurd (congrArg (·.registrationId) hnew).symm hdrawn

theorem connectRegistered_pinned (order : DriverOrder) :
    connectRegistered digest ring db order (.registrationPending registration) =
      if ring.accepts digest serverKey then
        (verifyAuthorizedSession order
          (db.findAgentAuthorization registration.identity.publicKey)).map
            fun _ => .registrationPending registration
      else .error .handshake := by
  obtain ⟨agentId, identity, serverKeys, registrationId⟩ := registration
  cases hpinned
  have hcandidates : connectWithCandidates digest ring [serverKey] =
      if ring.accepts digest serverKey then some serverKey else none := by
    simp only [connectWithCandidates, List.find?_cons, List.find?_nil]
    split <;> simp_all
  unfold connectRegistered
  rw [show PersistedAgentState.serverKeyCandidates _ = [serverKey] from rfl, hcandidates]
  by_cases haccepts : ring.accepts digest serverKey = true
  · simp only [haccepts, ↓reduceIte, PersistedAgentState.identity]
    cases verifyAuthorizedSession order (db.findAgentAuthorization identity.publicKey) <;> rfl
  · simp [haccepts]

omit hpinned in
/-- **A registration left pending is recovered exactly when** the Server still accepts the pinned key
    and has authorized the Agent, or still holds the registration, prepared, unexpired when the commit
    arrives and under the same current key, and the Agent sees its rejection: for every database that
    serial transactions with fresh UUIDs have led to, every pending state, and the same token, neither
    revoked nor expired. -/
theorem pending_registration_recovered_iff (digest : NoisePublicKey → KeyId) (ring : ServerKeyRing)
    (past : List (Nat × Transaction)) (hfresh : Along Store.step FreshIds {} past)
    (agentId : String) (identity : NoiseIdentity) (serverKey : NoisePublicKey)
    (registrationId : RegistrationId) (tokenId : String) (psk : RegistrationPsk) (times : Times)
    (hresolve : times.resolve ≤ times.commit) (hprepare : times.prepare ≤ times.commit)
    (order : DriverOrder) (generated : NoiseIdentity) (drawn : RegistrationId × String)
    (hdrawn : drawn.1 ≠ registrationId)
    (htoken : SameToken (run Store.step {} past).db tokenId psk registrationId times.commit) :
    EndsRegistered (establishInitial digest ring (run Store.step {} past).db order
        (some (tokenId, psk)) times generated drawn
        (some (.registrationPending (leftPending agentId identity serverKey registrationId)))) ↔
      CanRecover digest ring (run Store.step {} past).db order
        (leftPending agentId identity serverKey registrationId) serverKey times.commit := by
  have hinv := Store.run_inv past
  have horigin := Origin.run past hfresh
  generalize (run Store.step {} past).db = db at hinv horigin htoken ⊢
  have hpinned : (leftPending agentId identity serverKey registrationId).serverKeys =
      .new serverKey := rfl
  simp only [establishInitial, Option.getD_some, PersistedAgentState.stage]
  rw [connectRegistered_pinned hpinned]
  unfold CanRecover
  by_cases haccepts : ring.accepts digest serverKey = true
  · simp only [haccepts, true_and]
    cases db.findAgentAuthorization _ with
    | authorized agentId' =>
      refine iff_of_true ⟨.registered (leftPending agentId identity serverKey registrationId), db,
        rfl, rfl⟩ (.inl ⟨agentId', rfl⟩)
    | revoked | unauthorized =>
      constructor
      · cases order with
        | requests => exact fun h => .inr ⟨rfl, prepared_of_register hpinned hinv hdrawn h⟩
        | rejection =>
          rintro ⟨state, db', hok, -⟩
          cases hok
      · rintro (⟨_, hsome⟩ | ⟨rfl, hkey, hprepared⟩)
        · cases hsome
        · exact register_of_prepared hpinned hinv horigin hresolve hprepare htoken hkey hprepared
  · rw [if_neg haccepts]
    refine iff_of_false ?_ fun h => haccepts h.1
    rintro ⟨state, db', hok, -⟩
    cases hok

end Recovery

/-! ## 4. An Agent that was left pending -/

def agentIdentity : NoiseIdentity := identityOf 1

def serverIdentity : NoiseIdentity := identityOf 9

/-- A token is issued, and the Agent prepares and is lost. -/
def lostAfterPrepare : List (Nat × Transaction) :=
  [(0, .insertToken "token" (.replicate 32 7) none none),
    (1, .prepare "token" (.replicate 32 7) agentIdentity.publicKey (.replicate 16 1, "agent-1"))]

/-- What the Agent has in its state file. -/
def lostState : PersistedAgentState :=
  .registrationPending
    (leftPending "agent-1" agentIdentity serverIdentity.publicKey (.replicate 16 1))

/-- The Agent starts again, at this time. -/
def startsAgain (past : List (Nat × Transaction)) (order : DriverOrder) (now : Nat) :
    Except ClientError (PersistedAgentState × ServerDatabase) :=
  establishInitial id (.new serverIdentity) (run Store.step {} past).db order
    (some ("token", .replicate 32 7)) ⟨now, now, now⟩ agentIdentity (.replicate 16 2, "agent-2")
    (some lostState)

/-- A second later the registration is taken up again. -/
theorem pending_registration_recovered_soon :
    EndsRegistered (startsAgain lostAfterPrepare .requests 1000001) := by
  have hrow : (run Store.step {} lostAfterPrepare).db.registrations.rows.get (.replicate 16 1) =
      some ⟨"token", none, "agent-1", "agent-1", agentIdentity.publicKey, .prepared,
        some 600000001, none⟩ := by
    decide +kernel
  have hfresh : FreshIds (Store.step {} (0, .insertToken "token" (.replicate 32 7) none none))
      (1, .prepare "token" (.replicate 32 7) agentIdentity.publicKey
        (.replicate 16 1, "agent-1")) := by
    unfold FreshIds
    decide +kernel
  refine (pending_registration_recovered_iff id (.new serverIdentity) lostAfterPrepare
    ⟨trivial, hfresh, trivial⟩ "agent-1" agentIdentity serverIdentity.publicKey
    (.replicate 16 1) "token" (.replicate 32 7) ⟨1000001, 1000001, 1000001⟩ (Nat.le_refl _)
    (Nat.le_refl _) .requests agentIdentity (.replicate 16 2, "agent-2") (by decide) ⟨?_, ?_⟩).mpr ?_
  · exact ⟨⟨.replicate 32 7, none, .active, none, none⟩, by decide +kernel, rfl, by decide, rfl⟩
  · intro row hother
    cases hother
    rfl
  · exact ⟨by decide +kernel, .inr ⟨rfl, rfl, _, hrow, rfl, rfl, rfl, by decide⟩⟩

/-- **Stuck**: ten minutes later, whether the expired registration has been cleaned up or not, the
    Server issues new ids with the same token, and the Agent refuses them. A second later already, the
    start fails if the driver reads the rejection before it is asked for the Ping. -/
theorem expired_registration_stuck :
    (run Store.step {} lostAfterPrepare).db.loadActiveRegistrationPsk 600000001 "token" =
      some (.replicate 32 7) ∧ (startsAgain lostAfterPrepare .requests 600000001).map Prod.fst =
      .error .inconsistentPendingRegistration ∧
    (startsAgain (lostAfterPrepare ++ [(600000002, .cleanup)]) .requests 600000003).map Prod.fst =
      .error .inconsistentPendingRegistration ∧
    (startsAgain lostAfterPrepare .rejection 1000001).map Prod.fst = .error .closed := by
  decide +kernel

end Smalux.Enrollment
