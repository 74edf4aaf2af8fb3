/-
  Subject:   Registration tokens, registrations and Agents in the database
             (database/agent_registration.rs, database/management.rs, the three tables of
             database/entity).

  One operation is one transaction: it gives the new tables, or an error and no tables (the
  transaction is rolled back). The clock and the drawn UUIDs are inputs. The unique indexes of the
  migration are fields of the tables, so an `INSERT` is refused or keeps them. A registration id is
  kept as its 16 bytes. `created_at` and `updated_at` are read by nothing and left out.

  * `prepare_cases`, `commit_cases` -- everything a transaction can do.
-/
import Smalux.Lib.Run
import Smalux.Lib.UniqueColumn
import Smalux.Rotation.Keys

namespace Smalux.Server

open Lib Rotation Table

/-! ## 1. Rows -/

inductive TokenStatus where
  | active
  | used
  | revoked
  deriving DecidableEq, Repr

inductive RegistrationStatus where
  | prepared
  | committed
  | expired
  deriving DecidableEq, Repr

inductive AgentStatus where
  | active
  | revoked
  deriving DecidableEq, Repr

abbrev RegistrationId := FixedBytes 16

abbrev RegistrationPsk := FixedBytes 32

/-- A row of `registration_tokens`; times are microseconds. -/
structure RegistrationToken where
  psk : RegistrationPsk
  displayName : Option String
  status : TokenStatus
  expiresAt : Option Nat
  usedAt : Option Nat
  deriving DecidableEq

/-- A row of `agent_registrations`. -/
structure AgentRegistration where
  tokenId : String
  agentId : Option String
  reservedAgentId : String
  agentName : String
  agentPublicKey : NoisePublicKey
  status : RegistrationStatus
  expiresAt : Option Nat
  committedAt : Option Nat
  deriving DecidableEq

/-- A row of `agents`. -/
structure AgentRow where
  name : String
  publicKey : NoisePublicKey
  status : AgentStatus
  revokedAt : Option Nat
  deriving DecidableEq

inductive DatabaseError where
  /-- the database refuses the statement -/
  | constraint
  | invalidAgentRegistration (text : String)
  | invalidJobCatalog (text : String)
  | invalidPluginRuntime (text : String)
  | revisionConflict (resource : String) (expected actual : Nat)
  | webJobIdempotencyConflict
  deriving DecidableEq, Repr

/-- `expires_at.is_some_and(|expires_at| expires_at <= now)`. -/
def isOver (expiresAt : Option Nat) (now : Nat) : Bool := expiresAt.any (· ≤ now)

theorem isOver_mono {expiresAt : Option Nat} {now later : Nat} (h : now ≤ later)
    (hnot : isOver expiresAt later = false) : isOver expiresAt now = false := by
  cases expiresAt with
  | none => rfl
  | some =>
    simp only [isOver, Option.any_some, decide_eq_false_iff_not, not_le] at hnot ⊢
    omega

/-- Whether the token may still be used for a registration. -/
def RegistrationToken.isUsable (token : RegistrationToken) (now : Nat) : Bool :=
  token.status = .active && token.usedAt.isNone && !isOver token.expiresAt now

/-- `registration_is_expired`. -/
def AgentRegistration.isExpired (row : AgentRegistration) (now : Nat) : Bool :=
  row.status = .expired || row.status = .prepared && isOver row.expiresAt now

/-- Whether `revoke_agent` has nothing to do. -/
def AgentRow.isRevoked (agent : AgentRow) : Bool :=
  agent.status = .revoked && agent.revokedAt.isSome

/-! ## 2. Tables -/

structure RegistrationTable where
  rows : Table RegistrationId AgentRegistration
  /-- `uq_agent_registrations_token_id` -/
  uniqueToken : rows.UniqueBy (·.tokenId)
  /-- `uq_agent_registrations_public_key` -/
  uniqueKey : rows.UniqueBy (·.agentPublicKey)

namespace RegistrationTable

def empty : RegistrationTable := ⟨.empty, .empty, .empty⟩

def insert (t : RegistrationTable) (id : RegistrationId) (row : AgentRegistration) :
    Except DatabaseError RegistrationTable :=
  if h : t.rows.get id = none ∧ t.rows.findBy (·.tokenId) row.tokenId = none ∧
      t.rows.findBy (·.agentPublicKey) row.agentPublicKey = none then
    .ok ⟨t.rows.insert id row, t.uniqueToken.insert h.2.1, t.uniqueKey.insert h.2.2⟩
  else .error .constraint

def delete (t : RegistrationTable) (id : RegistrationId) : RegistrationTable :=
  ⟨t.rows.remove id, t.uniqueToken.remove id, t.uniqueKey.remove id⟩

def deleteMany (t : RegistrationTable) (p : AgentRegistration → Bool) : RegistrationTable :=
  ⟨t.rows.retain fun _ row => !p row, t.uniqueToken.retain _, t.uniqueKey.retain _⟩

/-- The update of a commit. -/
def setCommitted (t : RegistrationTable) (id : RegistrationId) (agentId : String) (now : Nat) :
    RegistrationTable :=
  ⟨t.rows.modify id fun row =>
      { row with agentId := some agentId, status := .committed, committedAt := some now },
    t.uniqueToken.modify fun _ => rfl, t.uniqueKey.modify fun _ => rfl⟩

end RegistrationTable

structure AgentTable where
  rows : Table String AgentRow
  uniqueKey : rows.UniqueBy (·.publicKey)

namespace AgentTable

def empty : AgentTable := ⟨.empty, .empty⟩

def insert (t : AgentTable) (id : String) (row : AgentRow) : Except DatabaseError AgentTable :=
  if h : t.rows.get id = none ∧ t.rows.findBy (·.publicKey) row.publicKey = none then
    .ok ⟨t.rows.insert id row, t.uniqueKey.insert h.2⟩
  else .error .constraint

/-- The update of a revocation. -/
def setRevoked (t : AgentTable) (id : String) (now : Nat) : AgentTable :=
  ⟨t.rows.modify id fun row => { row with status := .revoked, revokedAt := some now },
    t.uniqueKey.modify fun _ => rfl⟩

end AgentTable

structure ServerDatabase where
  tokens : Table String RegistrationToken
  registrations : RegistrationTable
  agents : AgentTable

namespace ServerDatabase

section

variable (db : ServerDatabase) (now : Nat) (row : AgentRegistration) (tokenId : String)

def empty : ServerDatabase := ⟨.empty, .empty, .empty⟩

/-! ## 3. Tokens -/

/-- `i64::MAX` microseconds. -/
def maxMicros : Nat := 2 ^ 63 - 1

def insertRegistrationToken (psk : RegistrationPsk) (displayName : Option String)
    (validFor : Option Nat) : Except DatabaseError ServerDatabase :=
  if validFor.any (maxMicros < ·) then
    .error (.invalidAgentRegistration
      "registration token duration does not fit in i64 microseconds")
  else if validFor.any (maxMicros < now + ·) then
    .error (.invalidAgentRegistration "registration token expiration timestamp overflow")
  else if db.tokens.contains tokenId then .error .constraint
  else
    .ok { db with
      tokens := db.tokens.insert tokenId ⟨psk, displayName, .active, validFor.map (now + ·), none⟩ }

def loadActiveRegistrationPsk : Option RegistrationPsk :=
  match db.tokens.get tokenId with
  | none => none
  | some token => if token.isUsable now then some token.psk else none

inductive RevokeTokenOutcome where
  | revoked
  | alreadyRevoked
  | alreadyUsed
  | notFound
  deriving DecidableEq, Repr

/-- What the row that was read leads to; `none`: the update comes next. -/
def revokeTokenOutcome : Option RegistrationToken → Option RevokeTokenOutcome
  | none => some .notFound
  | some token =>
    match token.status with
    | .revoked => some .alreadyRevoked
    | .used => some .alreadyUsed
    | .active => none

/-- The update of `revoke_registration_token`, by the primary key. -/
def setTokenRevoked : ServerDatabase :=
  { db with tokens := db.tokens.modify tokenId fun token => { token with status := .revoked } }

def revokeRegistrationToken : ServerDatabase × RevokeTokenOutcome :=
  match revokeTokenOutcome (db.tokens.get tokenId) with
  | some outcome => (db, outcome)
  | none => (db.setTokenRevoked tokenId, .revoked)

/-! ## 4. Prepare -/

structure PendingAgentRegistration where
  registrationId : RegistrationId
  agentId : String
  deriving DecidableEq

inductive PrepareAgentRegistrationError where
  | invalidToken
  | tokenAlreadyUsed
  | agentAlreadyRegistered
  | database (error : DatabaseError)
  deriving DecidableEq, Repr

/-- `PENDING_REGISTRATION_TTL_MICROS`. -/
def pendingRegistrationTtlMicros : Nat := 10 * 60 * 1000000

/-- `delete_registration_if_expired`: the tables after the deletion, if there is one. -/
def deleteRegistrationIfExpired (id : RegistrationId) (row : AgentRegistration) (now : Nat) :
    Option ServerDatabase :=
  if row.isExpired now then some { db with registrations := db.registrations.delete id } else none

/-- The row that is inserted. -/
def preparedRow (token : RegistrationToken) (agentPublicKey : NoisePublicKey) (agentId : String) :
    AgentRegistration where
  tokenId := tokenId
  agentId := none
  reservedAgentId := agentId
  agentName := token.displayName.getD agentId
  agentPublicKey := agentPublicKey
  status := .prepared
  expiresAt := some (now + pendingRegistrationTtlMicros)
  committedAt := none

def insertPrepared (id : RegistrationId) (row : AgentRegistration) :
    Except PrepareAgentRegistrationError (ServerDatabase × PendingAgentRegistration) :=
  match db.registrations.insert id row with
  | .error error => .error (.database error)
  | .ok registrations => .ok ({ db with registrations }, ⟨id, row.reservedAgentId⟩)

/-- The second half: the token must not be bound to another registration. -/
def prepareForToken (id : RegistrationId) (row : AgentRegistration) :
    Except PrepareAgentRegistrationError (ServerDatabase × PendingAgentRegistration) :=
  match db.registrations.rows.findBy (·.tokenId) tokenId with
  | none => db.insertPrepared id row
  | some (existingId, existing) =>
    match db.deleteRegistrationIfExpired existingId existing now with
    | none => .error .tokenAlreadyUsed
    | some db' => db'.insertPrepared id row

/-- The first half: the Agent's key may be bound to a registration that is tried again. -/
def prepareForKey (id : RegistrationId) (row : AgentRegistration) :
    Except PrepareAgentRegistrationError (ServerDatabase × PendingAgentRegistration) :=
  match db.registrations.rows.findBy (·.agentPublicKey) row.agentPublicKey with
  | none => db.prepareForToken now tokenId id row
  | some (existingId, existing) =>
    match db.deleteRegistrationIfExpired existingId existing now with
    | some db' => db'.prepareForToken now tokenId id row
    | none =>
      if existing.tokenId = tokenId ∧
          (existing.status = .prepared ∨ existing.status = .committed) then
        .ok (db, ⟨existingId, existing.reservedAgentId⟩)
      else .error .agentAlreadyRegistered

/-- `prepare_agent_registration`; `drawn` is what the two `Uuid::new_v4` give. -/
def prepareAgentRegistration (requestPsk : RegistrationPsk) (agentPublicKey : NoisePublicKey)
    (drawn : RegistrationId × String) :
    Except PrepareAgentRegistrationError (ServerDatabase × PendingAgentRegistration) :=
  match db.tokens.get tokenId with
  | none => .error .invalidToken
  | some token =>
    if token.status = .used ∨ token.usedAt.isSome then .error .tokenAlreadyUsed
    else if token.status ≠ .active ∨ isOver token.expiresAt now ∨ token.psk ≠ requestPsk then
      .error .invalidToken
    else
      db.prepareForKey now tokenId drawn.1
        (preparedRow now tokenId token agentPublicKey drawn.2)

/-! ## 5. Commit -/

/-- The check of the registration that is read first. -/
def checkRegistration (pending : PendingAgentRegistration) :
    Option AgentRegistration → Except DatabaseError AgentRegistration
  | none => .error (.invalidAgentRegistration "registration transaction is unknown")
  | some row =>
    if row.reservedAgentId ≠ pending.agentId then
      .error (.invalidAgentRegistration "registration transaction does not match Agent")
    else .ok row

/-- The check of the Agent of a registration that is committed already. -/
def checkCommittedAgent : Option AgentRow → Except DatabaseError Unit
  | none => .error (.invalidAgentRegistration "committed Agent record is missing")
  | some agent =>
    if agent.status ≠ .active then
      .error (.invalidAgentRegistration "committed Agent is not active")
    else .ok ()

def checkCommittable : Except DatabaseError Unit :=
  if row.status ≠ .prepared ∨ isOver row.expiresAt now then
    .error (.invalidAgentRegistration "registration transaction is not committable")
  else .ok ()

def checkToken : Option RegistrationToken → Except DatabaseError Unit
  | none => .error (.invalidAgentRegistration "registration token is invalid")
  | some token =>
    if token.isUsable now then .ok ()
    else .error (.invalidAgentRegistration "registration token is invalid")

def checkReservedAgent : Option AgentRow → Except DatabaseError Unit
  | none => .ok ()
  | some _ => .error (.invalidAgentRegistration "reserved Agent ID is already in use")

/-- The three writes. -/
def writeCommit (pending : PendingAgentRegistration) (row : AgentRegistration) :
    Except DatabaseError ServerDatabase :=
  match db.agents.insert row.reservedAgentId ⟨row.agentName, row.agentPublicKey, .active, none⟩ with
  | .error error => .error error
  | .ok agents =>
    .ok
      { tokens := db.tokens.modify row.tokenId fun token =>
          { token with status := .used, usedAt := some now }
        registrations := db.registrations.setCommitted pending.registrationId pending.agentId now
        agents }

def commitAgentRegistration (pending : PendingAgentRegistration) :
    Except DatabaseError ServerDatabase := do
  let row ← checkRegistration pending (db.registrations.rows.get pending.registrationId)
  if row.status = .committed then
    match row.agentId with
    | none => throw (.invalidAgentRegistration "committed registration has no Agent ID")
    | some agentId =>
      checkCommittedAgent (db.agents.rows.get agentId)
      return db
  else
    checkCommittable now row
    checkToken now (db.tokens.get row.tokenId)
    checkReservedAgent (db.agents.rows.get row.reservedAgentId)
    db.writeCommit now pending row

/-! ## 6. Cleanup, Agents -/

/-- The rows `cleanup_expired_agent_registrations` deletes. -/
def isCleanedUp : Bool :=
  row.agentId.isNone &&
    (row.status = .expired || row.status = .prepared && row.expiresAt.any (· < now))

def cleanupExpiredAgentRegistrations : ServerDatabase :=
  { db with registrations := db.registrations.deleteMany (isCleanedUp now) }

inductive PersistedAgentAuthorization where
  | authorized (agentId : String)
  | revoked
  | unauthorized
  deriving DecidableEq, Repr

def findAgentAuthorization (publicKey : NoisePublicKey) : PersistedAgentAuthorization :=
  match db.agents.rows.findBy (·.publicKey) publicKey with
  | none => .unauthorized
  | some (agentId, agent) =>
    if agent.status = .revoked ∨ agent.revokedAt.isSome then .revoked
    else if agent.status = .active then .authorized agentId
    else .unauthorized

def isAgentActive (agentId : String) : Bool :=
  match db.agents.rows.get agentId with
  | none => false
  | some agent => agent.status = .active && agent.revokedAt.isNone

def setAgentRevoked (agentId : String) (now : Nat) : ServerDatabase :=
  { db with agents := db.agents.setRevoked agentId now }

/-- `revoke_agent`; `none`: there is no such Agent. -/
def revokeAgent (agentId : String) : Option ServerDatabase :=
  match db.agents.rows.get agentId with
  | none => none
  | some agent => if agent.isRevoked then some db else some (db.setAgentRevoked agentId now)

/-! ## 7. What the transactions do -/

end

variable {db db' : ServerDatabase} {now : Nat} {id : RegistrationId} {row : AgentRegistration}
  {pending : PendingAgentRegistration} {tokenId : String} {thinned : ServerDatabase}

/-- Nothing has changed but that some expired registrations are gone. -/
structure Thinned (db : ServerDatabase) (now : Nat) (db' : ServerDatabase) : Prop where
  tokens : db'.tokens = db.tokens
  agents : db'.agents = db.agents
  only : ∀ i row, db'.registrations.rows.get i = some row → db.registrations.rows.get i = some row
  gone : ∀ i row, db.registrations.rows.get i = some row →
    db'.registrations.rows.get i = some row ∨ row.isExpired now = true

theorem Thinned.refl (db : ServerDatabase) (now : Nat) : Thinned db now db :=
  ⟨rfl, rfl, fun _ _ h => h, fun _ _ h => .inl h⟩

theorem Thinned.trans {db'' : ServerDatabase} (h : Thinned db now db') (h' : Thinned db' now db'') :
    Thinned db now db'' where
  tokens := h'.tokens.trans h.tokens
  agents := h'.agents.trans h.agents
  only := fun i row hrow => h.only i row (h'.only i row hrow)
  gone := fun i row hrow => (h.gone i row hrow).elim (h'.gone i row) .inr

theorem deleteRegistrationIfExpired_some (hrow : db.registrations.rows.get id = some row)
    (h : db.deleteRegistrationIfExpired id row now = some db') : Thinned db now db' := by
  unfold deleteRegistrationIfExpired at h
  split at h
  · rename_i hexpired
    cases h
    have hget : ∀ i, (db.registrations.rows.remove id).get i =
        if i = id then none else db.registrations.rows.get i := fun i => get_remove _ _ _
    refine ⟨rfl, rfl, fun i r hr => ?_, fun i r hr => ?_⟩
    · have hr' := (hget i).symm.trans hr
      split at hr'
      · cases hr'
      · exact hr'
    · by_cases hi : i = id
      · rw [hi, hrow] at hr
        cases hr
        exact .inr hexpired
      · exact .inl ((hget i).trans ((if_neg hi).trans hr))
  · cases h

theorem deleteRegistrationIfExpired_none (h : db.deleteRegistrationIfExpired id row now = none) :
    row.isExpired now = false := by
  unfold deleteRegistrationIfExpired at h
  split at h
  · cases h
  · rename_i hexpired
    exact Bool.eq_false_iff.mpr hexpired

theorem cleanup_thinned : Thinned db now (db.cleanupExpiredAgentRegistrations now) := by
  have hget : ∀ i, (db.cleanupExpiredAgentRegistrations now).registrations.rows.get i =
      (db.registrations.rows.get i).filter fun row => !isCleanedUp now row :=
    fun i => get_retain _ _ _
  refine ⟨rfl, rfl, fun i r hr => ?_, fun i r hr => ?_⟩
  · rw [hget, Option.filter_eq_some_iff] at hr
    exact hr.1
  · by_cases hclean : isCleanedUp now r = true
    · refine .inr ?_
      simp only [isCleanedUp, Bool.and_eq_true, Bool.or_eq_true, decide_eq_true_eq] at hclean
      simp only [AgentRegistration.isExpired, isOver, Bool.and_eq_true, Bool.or_eq_true,
        decide_eq_true_eq]
      refine hclean.2.imp_right fun ⟨hprepared, hover⟩ => ⟨hprepared, ?_⟩
      cases he : r.expiresAt with
      | none => rw [he] at hover; cases hover
      | some =>
        rw [he] at hover
        simp only [Option.any_some, decide_eq_true_eq] at hover ⊢
        omega
    · refine .inl ?_
      rw [hget, hr]
      simp [hclean]

/-- A new registration is stored, and some expired ones are gone. -/
structure Prepares (db : ServerDatabase) (now : Nat) (id : RegistrationId)
    (row : AgentRegistration) (db' : ServerDatabase) : Prop where
  tokens : db'.tokens = db.tokens
  agents : db'.agents = db.agents
  stored : db'.registrations.rows.get id = some row
  only : ∀ i r, db'.registrations.rows.get i = some r →
    i = id ∧ r = row ∨ db.registrations.rows.get i = some r
  gone : ∀ i r, db.registrations.rows.get i = some r →
    db'.registrations.rows.get i = some r ∨ r.isExpired now = true

theorem insertPrepared_ok (hthin : Thinned db now thinned)
    (h : thinned.insertPrepared id row = .ok (db', pending)) :
    pending = ⟨id, row.reservedAgentId⟩ ∧ Prepares db now id row db' := by
  unfold insertPrepared RegistrationTable.insert at h
  split at h
  · cases h
  · rename_i registrations hinsert
    split at hinsert
    · rename_i hfree
      cases hinsert
      cases h
      have hget : ∀ i, (thinned.registrations.rows.insert id row).get i =
          if i = id then some row else thinned.registrations.rows.get i :=
        fun i => get_insert _ _ _ _
      refine ⟨rfl, hthin.tokens, hthin.agents, (hget id).trans (if_pos rfl), fun i r hr => ?_,
        fun i r hr => ?_⟩
      · have hr' := (hget i).symm.trans hr
        split at hr'
        · rename_i hi
          exact .inl ⟨hi, (Option.some.inj hr').symm⟩
        · exact .inr (hthin.only i r hr')
      · rcases hthin.gone i r hr with hkept | hexpired
        · have hi : i ≠ id := fun hi => by
            rw [hi, hfree.1] at hkept
            cases hkept
          exact .inl ((hget i).trans ((if_neg hi).trans hkept))
        · exact .inr hexpired
    · cases hinsert

theorem prepareForToken_ok (hthin : Thinned db now thinned)
    (h : thinned.prepareForToken now tokenId id row = .ok (db', pending)) :
    pending = ⟨id, row.reservedAgentId⟩ ∧ Prepares db now id row db' := by
  unfold prepareForToken at h
  split at h
  · exact insertPrepared_ok hthin h
  · rename_i existingId existing hfound
    split at h
    · cases h
    · rename_i thinner hdelete
      have hthinner := deleteRegistrationIfExpired_some (findBy_some hfound).1 hdelete
      exact insertPrepared_ok (hthin.trans hthinner) h

/-- A stored registration is tried again. -/
structure Reuses (db : ServerDatabase) (now : Nat) (tokenId : String)
    (agentPublicKey : NoisePublicKey) (pending : PendingAgentRegistration) : Prop where
  intro ::
  stored : ∃ row, db.registrations.rows.get pending.registrationId = some row ∧
    row.reservedAgentId = pending.agentId ∧ row.tokenId = tokenId ∧
      row.agentPublicKey = agentPublicKey ∧ row.isExpired now = false ∧ row.status ≠ .expired

theorem prepareForKey_ok (h : db.prepareForKey now tokenId id row = .ok (db', pending)) :
    db' = db ∧ Reuses db now tokenId row.agentPublicKey pending ∨
      pending = ⟨id, row.reservedAgentId⟩ ∧ Prepares db now id row db' := by
  unfold prepareForKey at h
  split at h
  · exact .inr (prepareForToken_ok (Thinned.refl db now) h)
  · rename_i existingId existing hfound
    obtain ⟨hexisting, hkey⟩ := findBy_some hfound
    split at h
    · rename_i thinned hdelete
      exact .inr (prepareForToken_ok (deleteRegistrationIfExpired_some hexisting hdelete) h)
    · rename_i hkept
      split at h
      · rename_i hsame
        cases h
        refine .inl ⟨rfl, ⟨existing, hexisting, rfl, hsame.1, hkey,
          deleteRegistrationIfExpired_none hkept, ?_⟩⟩
        rcases hsame.2 with hs | hs <;> rw [hs] <;> decide
      · cases h

/-- **Everything `prepare_agent_registration` can do.** -/
theorem prepare_cases {psk : RegistrationPsk} {agentPublicKey : NoisePublicKey}
    {drawn : RegistrationId × String}
    (h : db.prepareAgentRegistration now tokenId psk agentPublicKey drawn = .ok (db', pending)) :
    ∃ token, db.tokens.get tokenId = some token ∧ token.isUsable now = true ∧ token.psk = psk ∧
      (db' = db ∧ Reuses db now tokenId agentPublicKey pending ∨ pending = ⟨drawn.1, drawn.2⟩ ∧
          Prepares db now drawn.1 (preparedRow now tokenId token agentPublicKey drawn.2) db') := by
  unfold prepareAgentRegistration at h
  split at h
  · cases h
  · rename_i token htoken
    split at h
    · cases h
    · rename_i hunused
      split at h
      · cases h
      · rename_i hvalid
        simp only [not_or, Bool.not_eq_true, Option.isSome_eq_false_iff] at hunused
        simp only [not_or, not_not, Bool.not_eq_true] at hvalid
        refine ⟨token, htoken, ?_, hvalid.2.2, prepareForKey_ok h⟩
        simp [RegistrationToken.isUsable, hvalid.1, hvalid.2.1, hunused.2]

/-- A registration is committed: its Agent is there, its token is used. -/
structure Commits (db : ServerDatabase) (now : Nat) (pending : PendingAgentRegistration)
    (row : AgentRegistration) (db' : ServerDatabase) : Prop where
  idFree : db.agents.rows.get row.reservedAgentId = none
  tokens : db'.tokens = db.tokens.modify row.tokenId fun token =>
    { token with status := .used, usedAt := some now }
  registrations : db'.registrations =
    db.registrations.setCommitted pending.registrationId pending.agentId now
  agents : db'.agents.rows = db.agents.rows.insert row.reservedAgentId
    ⟨row.agentName, row.agentPublicKey, .active, none⟩

theorem checkRegistration_ok {read : Option AgentRegistration}
    (h : checkRegistration pending read = .ok row) :
    read = some row ∧ row.reservedAgentId = pending.agentId := by
  unfold checkRegistration at h
  split at h
  · cases h
  · split at h
    · cases h
    · rename_i hsame
      cases h
      exact ⟨rfl, not_not.mp hsame⟩

theorem checkCommittable_ok (h : checkCommittable now row = .ok ()) :
    row.status = .prepared ∧ isOver row.expiresAt now = false := by
  unfold checkCommittable at h
  split at h
  · cases h
  · rename_i hok
    simpa [not_or] using hok

theorem checkToken_ok {read : Option RegistrationToken} (h : checkToken now read = .ok ()) :
    ∃ token, read = some token ∧ token.isUsable now = true := by
  unfold checkToken at h
  split at h
  · cases h
  · rename_i token
    split at h
    · rename_i husable
      exact ⟨token, rfl, husable⟩
    · cases h

theorem writeCommit_ok (h : db.writeCommit now pending row = .ok db') :
    Commits db now pending row db' := by
  unfold writeCommit AgentTable.insert at h
  split at h
  · cases h
  · rename_i agents hinsert
    split at hinsert
    · rename_i hfree
      cases hinsert
      cases h
      exact ⟨hfree.1, rfl, rfl, rfl⟩
    · cases hinsert

/-- **Everything `commit_agent_registration` can do.** -/
theorem commit_cases (h : db.commitAgentRegistration now pending = .ok db') :
    ∃ row, db.registrations.rows.get pending.registrationId = some row ∧
      row.reservedAgentId = pending.agentId ∧ (row.status = .committed ∧ db' = db ∨
        row.status = .prepared ∧ isOver row.expiresAt now = false ∧
          (∃ token, db.tokens.get row.tokenId = some token ∧ token.isUsable now = true) ∧
            Commits db now pending row db') := by
  obtain ⟨row, hread, h⟩ := bind_eq_ok h
  obtain ⟨hrow, hsame⟩ := checkRegistration_ok hread
  refine ⟨row, hrow, hsame, ?_⟩
  split at h
  · rename_i hcommitted
    split at h
    · cases h
    · obtain ⟨-, -, h⟩ := bind_eq_ok h
      cases h
      exact .inl ⟨hcommitted, rfl⟩
  · obtain ⟨⟨⟩, hcommittable, h⟩ := bind_eq_ok h
    obtain ⟨⟨⟩, htoken, h⟩ := bind_eq_ok h
    obtain ⟨⟨⟩, hreserved, h⟩ := bind_eq_ok h
    obtain ⟨hprepared, hover⟩ := checkCommittable_ok hcommittable
    exact .inr ⟨hprepared, hover, checkToken_ok htoken, writeCommit_ok h⟩

end ServerDatabase

end Smalux.Server
