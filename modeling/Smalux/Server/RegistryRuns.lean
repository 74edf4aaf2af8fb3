/-
  Subject:   The registration tables over whole sequences of transactions.

  The transactions are serial, at times that do not go back; a failed one leaves the tables as they
  are.

  * `Consistent` -- tokens, registrations and Agents agree;
  * **`registration_store_sound`** -- they always do; a prepare is repeatable as long as its token is
    usable and its registration has not expired; a repeated commit changes nothing.
-/
import Smalux.Server.Registry

namespace Smalux.Server

open Lib Rotation ServerDatabase Table

inductive Transaction where
  | insertToken (tokenId : String) (psk : RegistrationPsk) (displayName : Option String)
      (validFor : Option Nat)
  | prepare (tokenId : String) (psk : RegistrationPsk) (agentPublicKey : NoisePublicKey)
      (drawn : RegistrationId × String)
  | commit (pending : PendingAgentRegistration)
  | cleanup
  | revokeToken (tokenId : String)
  | revokeAgent (agentId : String)

/-- The tables after a transaction: an error rolls it back. -/
def Transaction.apply (db : ServerDatabase) (now : Nat) : Transaction → ServerDatabase
  | .insertToken tokenId psk displayName validFor =>
    match db.insertRegistrationToken now tokenId psk displayName validFor with
    | .ok db' => db'
    | .error _ => db
  | .prepare tokenId psk agentPublicKey drawn =>
    match db.prepareAgentRegistration now tokenId psk agentPublicKey drawn with
    | .ok (db', _) => db'
    | .error _ => db
  | .commit pending =>
    match db.commitAgentRegistration now pending with
    | .ok db' => db'
    | .error _ => db
  | .cleanup => db.cleanupExpiredAgentRegistrations now
  | .revokeToken tokenId => (db.revokeRegistrationToken tokenId).1
  | .revokeAgent agentId => (db.revokeAgent now agentId).getD db

/-- The tables and the time of the last transaction. -/
structure Store where
  db : ServerDatabase := .empty
  now : Nat := 0

namespace Store

def step (s : Store) (t : Nat × Transaction) : Store := ⟨t.2.apply s.db t.1, t.1⟩

/-- Time does not go back. -/
def Ordered (s : Store) (t : Nat × Transaction) : Prop := s.now ≤ t.1
  deriving Decidable

end Store

/-! ## 1. One transaction -/

namespace ServerDatabase

/-- A token is put in that was not there. -/
structure Issues (db : ServerDatabase) (tokenId : String) (token : RegistrationToken)
    (db' : ServerDatabase) : Prop where
  fresh : db.tokens.get tokenId = none
  active : token.status = .active
  unused : token.usedAt = none
  tokens : db'.tokens = db.tokens.insert tokenId token
  registrations : db'.registrations = db.registrations
  agents : db'.agents = db.agents

/-- **Everything a transaction can do to the tables.** -/
inductive Changes (db : ServerDatabase) (now : Nat) : ServerDatabase → Prop where
  | nothing : Changes db now db
  | issues {tokenId token db'} (h : Issues db tokenId token db') : Changes db now db'
  | prepares {id tokenId agentId token key db'}
      (h : Prepares db now id (preparedRow now tokenId token key agentId) db') : Changes db now db'
  | commits {pending row db'}
      (hrow : db.registrations.rows.get pending.registrationId = some row)
      (hsame : row.reservedAgentId = pending.agentId) (hprepared : row.status = .prepared)
      (htoken : ∃ token, db.tokens.get row.tokenId = some token ∧ token.isUsable now = true)
      (h : Commits db now pending row db') : Changes db now db'
  | thins {db'} (h : Thinned db now db') : Changes db now db'
  | revokesToken {tokenId token} (htoken : db.tokens.get tokenId = some token)
      (hactive : token.status = .active) :
      Changes db now (db.setTokenRevoked tokenId)
  | revokesAgent {agentId} : Changes db now (db.setAgentRevoked agentId now)

end ServerDatabase

variable {read : Option RegistrationToken} {id : RegistrationId} {row : AgentRegistration}
  {token : RegistrationToken} {db db' : ServerDatabase} {now : Nat}

namespace ServerDatabase

theorem insertRegistrationToken_ok {tokenId : String} {psk : RegistrationPsk}
    {displayName : Option String} {validFor : Option Nat}
    (h : db.insertRegistrationToken now tokenId psk displayName validFor = .ok db') :
    ∃ token, Issues db tokenId token db' := by
  unfold insertRegistrationToken at h
  split at h
  · cases h
  · split at h
    · cases h
    · split at h
      · cases h
      · rename_i hfresh
        cases h
        rw [Bool.not_eq_true, contains_eq_false_iff] at hfresh
        exact ⟨_, hfresh, rfl, rfl, rfl, rfl, rfl⟩

theorem revokeTokenOutcome_none (h : revokeTokenOutcome read = none) :
    ∃ token, read = some token ∧ token.status = .active := by
  unfold revokeTokenOutcome at h
  split at h
  · cases h
  · split at h
    · cases h
    · cases h
    · rename_i hactive
      exact ⟨_, rfl, hactive⟩

theorem revokeTokenOutcome_alreadyRevoked (h : revokeTokenOutcome read = some .alreadyRevoked) :
    ∃ token, read = some token ∧ token.status = .revoked := by
  unfold revokeTokenOutcome at h
  split at h
  · cases h
  · split at h
    · rename_i hrevoked
      exact ⟨_, rfl, hrevoked⟩
    · cases h
    · cases h

theorem changes_apply (db : ServerDatabase) (now : Nat) (t : Transaction) :
    Changes db now (t.apply db now) := by
  cases t <;> simp only [Transaction.apply]
  case insertToken =>
    split
    · rename_i hok
      obtain ⟨token, h⟩ := insertRegistrationToken_ok hok
      exact .issues h
    · exact .nothing
  case prepare =>
    split
    · rename_i hok
      obtain ⟨token, -, -, -, h | h⟩ := prepare_cases hok
      · rw [h.1]
        exact .nothing
      · exact .prepares h.2
    · exact .nothing
  case commit =>
    split
    · rename_i hok
      obtain ⟨row, hrow, hsame, h | h⟩ := commit_cases hok
      · rw [h.2]
        exact .nothing
      · exact .commits hrow hsame h.1 h.2.2.1 h.2.2.2
    · exact .nothing
  case cleanup => exact .thins cleanup_thinned
  case revokeToken =>
    simp only [revokeRegistrationToken]
    split
    · exact .nothing
    · rename_i houtcome
      obtain ⟨token, htoken, hactive⟩ := revokeTokenOutcome_none houtcome
      exact .revokesToken htoken hactive
  case revokeAgent =>
    simp only [ServerDatabase.revokeAgent]
    split
    · exact .nothing
    · split
      · exact .nothing
      · exact .revokesAgent

/-- **A committed registration stays.** -/
theorem committed_kept (hc : Changes db now db') (hrow : db.registrations.rows.get id = some row)
    (hcommitted : row.status = .committed) : db'.registrations.rows.get id = some row := by
  have hkept : db'.registrations.rows.get id = some row ∨ row.isExpired now = true →
      db'.registrations.rows.get id = some row := by
    rintro (hkept | hexpired)
    · exact hkept
    · simp [AgentRegistration.isExpired, hcommitted] at hexpired
  cases hc with
  | nothing | revokesToken | revokesAgent => exact hrow
  | issues hi => rw [hi.registrations]; exact hrow
  | prepares hp | thins hp => exact hkept (hp.gone id row hrow)
  | @commits pending prepared _ hprepared _ hstatus _ hcommit =>
    have hid : id ≠ pending.registrationId := fun hid => by
      rw [hid, hprepared] at hrow
      cases hrow
      rw [hstatus] at hcommitted
      cases hcommitted
    rw [hcommit.registrations]
    exact (get_modify _ _ _ _).trans ((if_neg hid).trans hrow)

/-- **Where a registration comes from**: it was there before, or this transaction prepares or
    commits it. -/
theorem registrations_apply {t : Transaction}
    (hrow : (t.apply db now).registrations.rows.get id = some row) :
    db.registrations.rows.get id = some row ∨
      (∃ tokenId psk key drawn token, t = .prepare tokenId psk key drawn ∧ drawn.1 = id ∧
        row = preparedRow now tokenId token key drawn.2) ∨
      ∃ pending row', t = .commit pending ∧ pending.registrationId = id ∧
        db.registrations.rows.get id = some row' ∧ row'.reservedAgentId = pending.agentId ∧
        row = { row' with
          agentId := some pending.agentId, status := .committed, committedAt := some now } := by
  cases t with
  | insertToken =>
    simp only [Transaction.apply] at hrow
    split at hrow
    · rename_i hok
      obtain ⟨token, h⟩ := insertRegistrationToken_ok hok
      rw [h.registrations] at hrow
      exact .inl hrow
    · exact .inl hrow
  | prepare tokenId psk key drawn =>
    simp only [Transaction.apply] at hrow
    split at hrow
    · rename_i hok
      obtain ⟨token, -, -, -, ⟨rfl, -⟩ | ⟨-, h⟩⟩ := prepare_cases hok
      · exact .inl hrow
      · rcases h.only id row hrow with ⟨hid, rfl⟩ | hold
        · exact .inr (.inl ⟨tokenId, psk, key, drawn, token, rfl, hid.symm, rfl⟩)
        · exact .inl hold
    · exact .inl hrow
  | commit pending =>
    simp only [Transaction.apply] at hrow
    split at hrow
    · rename_i hok
      obtain ⟨row', hrow', hsame, ⟨-, rfl⟩ | ⟨-, -, -, h⟩⟩ := commit_cases hok
      · exact .inl hrow
      · rw [h.registrations] at hrow
        have hrow := (get_modify _ _ _ _).symm.trans hrow
        split at hrow
        · rename_i hid
          rw [hid, hrow'] at hrow
          cases hrow
          exact .inr (.inr ⟨pending, row', rfl, hid.symm, hid ▸ hrow', hsame, rfl⟩)
        · exact .inl hrow
    · exact .inl hrow
  | cleanup => exact .inl (cleanup_thinned.only id row hrow)
  | revokeToken =>
    simp only [Transaction.apply, revokeRegistrationToken] at hrow
    split at hrow <;> exact .inl hrow
  | revokeAgent =>
    simp only [Transaction.apply, ServerDatabase.revokeAgent] at hrow
    split at hrow
    · exact .inl hrow
    · split at hrow <;> exact .inl hrow

/-- A committed one was committed before, or this transaction is its commit. -/
theorem committed_apply {t : Transaction}
    (hrow : (t.apply db now).registrations.rows.get id = some row)
    (hcommitted : row.status = .committed) : db.registrations.rows.get id = some row ∨
      ∃ pending row', t = .commit pending ∧ pending.registrationId = id ∧
        db.registrations.rows.get id = some row' ∧ row'.agentPublicKey = row.agentPublicKey ∧
          row.reservedAgentId = pending.agentId := by
  rcases registrations_apply hrow with hold | ⟨_, _, _, _, _, -, -, rfl⟩ |
    ⟨pending, row', ht, hid, hrow', hsame, rfl⟩
  · exact .inl hold
  · cases hcommitted
  · exact .inr ⟨pending, row', ht, hid, hrow', rfl, hsame⟩

end ServerDatabase

/-! ## 2. The tables agree -/

/-- The registration is committed and refers to the token. -/
def CommittedFor (db : ServerDatabase) (tokenId : String) (id : RegistrationId) : Prop :=
  ∃ row, db.registrations.rows.get id = some row ∧ row.tokenId = tokenId ∧ row.status = .committed

/-- There is one Agent with the registration's reserved id and key, and no other with its key. -/
def HasItsAgent (db : ServerDatabase) (row : AgentRegistration) : Prop :=
  ∃ agent, db.agents.rows.get row.reservedAgentId = some agent ∧
    agent.publicKey = row.agentPublicKey ∧
      ∀ i other, db.agents.rows.get i = some other → other.publicKey = row.agentPublicKey →
        i = row.reservedAgentId

/-- **Tokens, registrations and Agents agree.** -/
structure Consistent (db : ServerDatabase) : Prop where
  used_iff : ∀ tokenId token, db.tokens.get tokenId = some token →
    (token.status = .used ↔ ∃! id, CommittedFor db tokenId id)
  agent : ∀ id row, db.registrations.rows.get id = some row → row.status = .committed →
    HasItsAgent db row
  onePerToken : db.registrations.rows.UniqueBy (·.tokenId)
  onePerKey : db.registrations.rows.UniqueBy (·.agentPublicKey)

/-- What every transaction keeps. -/
structure Inv (db : ServerDatabase) : Prop where
  used : ∀ tokenId token, db.tokens.get tokenId = some token → token.status = .used →
    ∃ id, CommittedFor db tokenId id
  committed : ∀ id row, db.registrations.rows.get id = some row → row.status = .committed →
    (∃ token, db.tokens.get row.tokenId = some token ∧ token.status = .used) ∧
      ∃ agent, db.agents.rows.get row.reservedAgentId = some agent ∧
        agent.publicKey = row.agentPublicKey

namespace Inv

theorem empty : Inv .empty where
  used := fun _ _ h => by cases h
  committed := fun _ _ h => by cases h

theorem consistent (h : Inv db) : Consistent db where
  used_iff := by
    intro tokenId token htoken
    constructor
    · intro hused
      obtain ⟨id, hid⟩ := h.used tokenId token htoken hused
      refine ⟨id, hid, fun other hother => ?_⟩
      obtain ⟨row, hrow, hfor, -⟩ := hid
      obtain ⟨row', hrow', hfor', -⟩ := hother
      exact db.registrations.uniqueToken _ _ _ _ hrow' hrow (hfor'.trans hfor.symm)
    · rintro ⟨id, ⟨row, hrow, rfl, hcommitted⟩, -⟩
      obtain ⟨token', htoken', hused⟩ := (h.committed id row hrow hcommitted).1
      rw [htoken] at htoken'
      cases htoken'
      exact hused
  agent := by
    intro id row hrow hcommitted
    obtain ⟨agent, hagent, hkey⟩ := (h.committed id row hrow hcommitted).2
    exact ⟨agent, hagent, hkey, fun i other hother hsame =>
      db.agents.uniqueKey _ _ _ _ hother hagent (hsame.trans hkey.symm)⟩
  onePerToken := db.registrations.uniqueToken
  onePerKey := db.registrations.uniqueKey

/-- The committed registrations are as before: the rest of the tables decides. -/
theorem of_same_committed (h : Inv db) (hkept : ∀ i row, row.status = .committed →
      db.registrations.rows.get i = some row → db'.registrations.rows.get i = some row)
    (hrows : ∀ i row, row.status = .committed → db'.registrations.rows.get i = some row →
      db.registrations.rows.get i = some row)
    (hused : ∀ tokenId, (∃ token, db'.tokens.get tokenId = some token ∧ token.status = .used) ↔
      ∃ token, db.tokens.get tokenId = some token ∧ token.status = .used)
    (hagents : ∀ i agent, db.agents.rows.get i = some agent →
      ∃ agent', db'.agents.rows.get i = some agent' ∧ agent'.publicKey = agent.publicKey) :
    Inv db' where
  used := by
    intro tokenId token htoken hstatus
    obtain ⟨token', htoken', hstatus'⟩ := (hused tokenId).mp ⟨token, htoken, hstatus⟩
    obtain ⟨id, row, hrow, hfor, hcommitted⟩ := h.used tokenId token' htoken' hstatus'
    exact ⟨id, row, hkept id row hcommitted hrow, hfor, hcommitted⟩
  committed := by
    intro id row hrow hcommitted
    obtain ⟨htoken, agent, hagent, hkey⟩ :=
      h.committed id row (hrows id row hcommitted hrow) hcommitted
    obtain ⟨agent', hagent', hkey'⟩ := hagents _ agent hagent
    exact ⟨(hused _).mpr htoken, agent', hagent', hkey'.trans hkey⟩

theorem revokesToken (h : Inv db) {tokenId : String} (htoken : db.tokens.get tokenId = some token)
    (hunused : token.status ≠ .used) : Inv (db.setTokenRevoked tokenId) := by
  refine h.of_same_committed (fun _ _ _ => id) (fun _ _ _ => id) (fun other => ?_)
    (fun _ agent hagent => ⟨agent, hagent, rfl⟩)
  rw [show (db.setTokenRevoked tokenId).tokens.get other = _ from get_modify _ _ _ _]
  by_cases hsame : other = tokenId
  · rw [if_pos hsame, hsame, htoken]
    simp [hunused]
  · rw [if_neg hsame]

/-- The one transaction that makes a registration committed. -/
theorem commits (h : Inv db) {pending : PendingAgentRegistration}
    (hrow : db.registrations.rows.get pending.registrationId = some row)
    (hprepared : row.status = .prepared) (htoken : ∃ token, db.tokens.get row.tokenId = some token)
    (hc : Commits db now pending row db') : Inv db' := by
  have htokens : ∀ i, db'.tokens.get i = if i = row.tokenId then
      (db.tokens.get i).map fun token => { token with status := .used, usedAt := some now }
      else db.tokens.get i := fun i => by rw [hc.tokens, get_modify]
  have hrows : ∀ i, db'.registrations.rows.get i = if i = pending.registrationId then
      (db.registrations.rows.get i).map fun row =>
        { row with agentId := some pending.agentId, status := .committed, committedAt := some now }
      else db.registrations.rows.get i := fun i => by
    rw [hc.registrations]
    exact get_modify _ _ _ _
  have hagents : ∀ i, db'.agents.rows.get i = if i = row.reservedAgentId then
      some ⟨row.agentName, row.agentPublicKey, .active, none⟩ else db.agents.rows.get i :=
    fun i => by rw [hc.agents, get_insert]
  have hused : ∃ token, db'.tokens.get row.tokenId = some token ∧ token.status = .used := by
    obtain ⟨token, htoken⟩ := htoken
    exact ⟨_, by rw [htokens, if_pos rfl, htoken]; rfl, rfl⟩
  constructor
  · intro tokenId token htoken hstatus
    by_cases hsame : tokenId = row.tokenId
    · have hnew : db'.registrations.rows.get pending.registrationId =
          some { row with
            agentId := some pending.agentId, status := .committed, committedAt := some now } := by
        rw [hrows, if_pos rfl, hrow]
        rfl
      exact ⟨_, _, hnew, hsame.symm, rfl⟩
    · rw [htokens, if_neg hsame] at htoken
      obtain ⟨id, other, hother, hfor, hcommitted⟩ := h.used tokenId token htoken hstatus
      have hid : id ≠ pending.registrationId := fun hid => by
        rw [hid, hrow] at hother
        cases hother
        rw [hprepared] at hcommitted
        cases hcommitted
      exact ⟨id, other, by rw [hrows, if_neg hid]; exact hother, hfor, hcommitted⟩
  · intro id other hother hcommitted
    by_cases hid : id = pending.registrationId
    · rw [hrows, if_pos hid, hid, hrow] at hother
      cases hother
      exact ⟨hused, _, by rw [hagents]; exact if_pos rfl, rfl⟩
    · rw [hrows, if_neg hid] at hother
      obtain ⟨⟨token, htoken, hstatus⟩, agent, hagent, hkey⟩ := h.committed id other hother hcommitted
      refine ⟨?_, agent, ?_, hkey⟩
      · by_cases hsame : other.tokenId = row.tokenId
        · rw [hsame]
          exact hused
        · exact ⟨token, by rw [htokens, if_neg hsame]; exact htoken, hstatus⟩
      · have hother : other.reservedAgentId ≠ row.reservedAgentId := fun he => by
          rw [he, hc.idFree] at hagent
          cases hagent
        rw [hagents, if_neg hother]
        exact hagent

/-- **Every transaction keeps the tables in agreement.** -/
theorem changes (h : Inv db) (hc : Changes db now db') : Inv db' := by
  have hsame := h.of_same_committed fun _ _ hcommitted hrow =>
    committed_kept hc hrow hcommitted
  cases hc with
  | nothing => exact h
  | @issues tokenId token _ hi =>
    refine hsame (fun i row _ => by rw [hi.registrations]; exact id) (fun other => ?_)
      (fun i agent hagent => ⟨agent, by rw [hi.agents]; exact hagent, rfl⟩)
    rw [hi.tokens, get_insert]
    by_cases he : other = tokenId
    · rw [if_pos he, he, hi.fresh]
      simp [hi.active]
    · rw [if_neg he]
  | prepares hp =>
    refine hsame (fun i row hcommitted hrow => ?_) (fun tokenId => by rw [hp.tokens])
      (fun i agent hagent => ⟨agent, by rw [hp.agents]; exact hagent, rfl⟩)
    rcases hp.only i row hrow with ⟨-, rfl⟩ | hold
    · cases hcommitted
    · exact hold
  | commits hrow _ hprepared htoken hc =>
    obtain ⟨token, htoken, -⟩ := htoken
    exact h.commits hrow hprepared ⟨token, htoken⟩ hc
  | thins ht =>
    exact hsame (fun i row _ => ht.only i row) (fun tokenId => by rw [ht.tokens])
      (fun i agent hagent => ⟨agent, by rw [ht.agents]; exact hagent, rfl⟩)
  | revokesToken htoken hactive => exact h.revokesToken htoken (by rw [hactive]; decide)
  | @revokesAgent agentId =>
    refine hsame (fun _ _ _ => id) (fun _ => Iff.rfl) (fun i agent hagent => ?_)
    rw [show (db.setAgentRevoked agentId now).agents.rows.get i = _ from get_modify _ _ _ _,
      hagent]
    split <;> exact ⟨_, rfl, rfl⟩

end Inv

/-! ## 3. Repeated operations -/

/-- The token with its key, and a registration of the token for the Agent's key that has not expired
    by then. -/
structure Bound (db : ServerDatabase) (tokenId : String) (psk : RegistrationPsk)
    (key : NoisePublicKey) (pending : PendingAgentRegistration) (later : Nat) : Prop where
  intro ::
  token : ∃ token, db.tokens.get tokenId = some token ∧ token.psk = psk
  row : ∃ row, db.registrations.rows.get pending.registrationId = some row ∧
    row.reservedAgentId = pending.agentId ∧ row.tokenId = tokenId ∧ row.agentPublicKey = key ∧
      row.status ≠ .expired ∧ isOver row.expiresAt later = false

namespace Bound

variable {later : Nat} {tokenId : String} {psk : RegistrationPsk} {key : NoisePublicKey}
  {pending : PendingAgentRegistration}

theorem not_expired (hstatus : row.status ≠ .expired) (hover : isOver row.expiresAt later = false)
    (hnow : now ≤ later) : row.isExpired now = false := by
  simp [AgentRegistration.isExpired, hstatus, isOver_mono hnow hover]

/-- The registration is there still. -/
def Stays (db : ServerDatabase) (i : RegistrationId) (row : AgentRegistration) : Prop :=
  ∃ row', db.registrations.rows.get i = some row' ∧ row'.reservedAgentId = row.reservedAgentId ∧
    row'.tokenId = row.tokenId ∧ row'.agentPublicKey = row.agentPublicKey ∧
    row'.status ≠ .expired ∧ row'.expiresAt = row.expiresAt

/-- Both rows are there still, up to the columns that transactions update. -/
theorem of_kept (h : Bound db tokenId psk key pending later)
    (htokens : ∀ i token, db.tokens.get i = some token →
      ∃ token', db'.tokens.get i = some token' ∧ token'.psk = token.psk)
    (hrows : ∀ i row, db.registrations.rows.get i = some row → row.status ≠ .expired →
      isOver row.expiresAt later = false → Stays db' i row) :
    Bound db' tokenId psk key pending later := by
  obtain ⟨token, htoken, hpsk⟩ := h.token
  obtain ⟨row, hrow, hreserved, hfor, hkey, hstatus, hover⟩ := h.row
  obtain ⟨token', htoken', hpsk'⟩ := htokens _ _ htoken
  obtain ⟨row', hrow', hreserved', hfor', hkey', hstatus', hexpires'⟩ := hrows _ _ hrow hstatus hover
  exact ⟨⟨token', htoken', hpsk'.trans hpsk⟩, row', hrow', hreserved'.trans hreserved,
    hfor'.trans hfor, hkey'.trans hkey, hstatus', by rw [hexpires']; exact hover⟩

/-- **A transaction before the registration expires** leaves the registration there. -/
theorem changes (h : Bound db tokenId psk key pending later) (hnow : now ≤ later)
    (hc : Changes db now db') : Bound db' tokenId psk key pending later := by
  have hsame : ∀ {i row}, row.status ≠ .expired → isOver row.expiresAt later = false →
      (db'.registrations.rows.get i = some row ∨ row.isExpired now = true) → Stays db' i row := by
    intro i row hstatus hover hgone
    rcases hgone with hkept | hexpired
    · exact ⟨row, hkept, rfl, rfl, rfl, hstatus, rfl⟩
    · rw [not_expired hstatus hover hnow] at hexpired
      cases hexpired
  cases hc with
  | nothing => exact h
  | issues hi =>
    refine h.of_kept (fun i token htoken => ⟨token, ?_, rfl⟩)
      (fun i row hrow hstatus hover => hsame hstatus hover (.inl ?_))
    · have hne : i ≠ _ := fun he => by
        rw [he, hi.fresh] at htoken
        cases htoken
      rw [hi.tokens, get_insert, if_neg hne]
      exact htoken
    · rw [hi.registrations]
      exact hrow
  | prepares hp | thins hp =>
    exact h.of_kept (fun i token htoken => ⟨token, by rw [hp.tokens]; exact htoken, rfl⟩)
      (fun i row hrow hstatus hover => hsame hstatus hover (hp.gone i row hrow))
  | commits hrow _ _ _ hc =>
    refine h.of_kept (fun i token htoken => ?_) (fun i row hrow hstatus _ => ?_)
    · rw [hc.tokens, get_modify, htoken]
      split <;> exact ⟨_, rfl, rfl⟩
    · unfold Stays
      rw [hc.registrations, show (RegistrationTable.setCommitted _ _ _ _).rows.get i = _ from
        get_modify _ _ _ _, hrow]
      split
      · exact ⟨_, rfl, rfl, rfl, rfl, by simp, rfl⟩
      · exact ⟨_, rfl, rfl, rfl, rfl, hstatus, rfl⟩
  | revokesToken =>
    refine h.of_kept (fun i token htoken => ?_)
      (fun i row hrow hstatus hover => hsame hstatus hover (.inl hrow))
    rw [show (ServerDatabase.setTokenRevoked _ _).tokens.get i = _ from get_modify _ _ _ _,
      htoken]
    split <;> exact ⟨_, rfl, rfl⟩
  | revokesAgent =>
    exact h.of_kept (fun i token htoken => ⟨token, htoken, rfl⟩)
      (fun i row hrow hstatus hover => hsame hstatus hover (.inl hrow))

/-- **The same answer.** -/
theorem prepare (h : Bound db tokenId psk key pending later)
    (husable : ∀ token, db.tokens.get tokenId = some token → token.isUsable later = true)
    (drawn : RegistrationId × String) :
    db.prepareAgentRegistration later tokenId psk key drawn = .ok (db, pending) := by
  obtain ⟨token, htoken, hpsk⟩ := h.token
  obtain ⟨row, hrow, hreserved, hfor, hkey, hstatus, hover⟩ := h.row
  have husable := husable token htoken
  simp only [RegistrationToken.isUsable, Bool.and_eq_true, decide_eq_true_eq, Option.isNone_iff_eq_none,
    Bool.not_eq_true'] at husable
  have hfound : db.registrations.rows.findBy (·.agentPublicKey) key =
      some (pending.registrationId, row) :=
    db.registrations.uniqueKey.findBy_eq_some_iff.mpr ⟨hrow, hkey⟩
  have hkept : db.deleteRegistrationIfExpired pending.registrationId row later = none := by
    rw [deleteRegistrationIfExpired, not_expired hstatus hover (Nat.le_refl later)]
    rfl
  have hprepared : row.status = .prepared ∨ row.status = .committed := by
    cases hs : row.status with
    | prepared => exact .inl rfl
    | committed => exact .inr rfl
    | expired => exact absurd hs hstatus
  rw [prepareAgentRegistration, htoken]
  simp [husable, hpsk, prepareForKey, preparedRow, hfound, hkept, hfor, hprepared, hreserved]

end Bound

namespace Store

theorem now_le_run : ∀ {txs : List (Nat × Transaction)} {s : Store}, Along step Ordered s txs →
    s.now ≤ (run step s txs).now
  | [], _, _ => Nat.le_refl _
  | _ :: _, _, h => Nat.le_trans h.1 (now_le_run h.2)

theorem times_le {later : Nat} : ∀ {txs : List (Nat × Transaction)} {s : Store},
    Along step Ordered s txs → (run step s txs).now ≤ later →
      Along step (fun _ t => t.1 ≤ later) s txs
  | [], _, _, _ => trivial
  | _ :: _, _, h, hlater => ⟨Nat.le_trans (now_le_run h.2) hlater, times_le h.2 hlater⟩

/-- A prepare that has succeeded succeeds again with the same ids, whatever happens in between, as
    long as the registration has not expired and the token is usable, and changes nothing. -/
def PreparesAgain (s : Store) : Prop :=
  ∀ now tokenId psk key drawn db' pending,
    s.db.prepareAgentRegistration now tokenId psk key drawn = .ok (db', pending) →
    ∀ between later drawn', Along step Ordered ⟨db', now⟩ between →
      (run step ⟨db', now⟩ between).now ≤ later →
      (∀ row, db'.registrations.rows.get pending.registrationId = some row →
        isOver row.expiresAt later = false) →
      (∀ token, (run step ⟨db', now⟩ between).db.tokens.get tokenId = some token →
        token.isUsable later = true) →
      (run step ⟨db', now⟩ between).db.prepareAgentRegistration later tokenId psk key drawn' =
        .ok ((run step ⟨db', now⟩ between).db, pending)

/-- A commit of a committed registration changes nothing. -/
def CommitsOnce (s : Store) : Prop :=
  ∀ now pending row, s.db.registrations.rows.get pending.registrationId = some row →
    row.status = .committed → (Transaction.commit pending).apply s.db now = s.db

theorem commitsOnce (s : Store) : s.CommitsOnce := by
  intro now pending row hrow hcommitted
  simp only [Transaction.apply]
  split
  · rename_i hok
    obtain ⟨row', hrow', -, h | h⟩ := commit_cases hok
    · exact h.2
    · rw [hrow] at hrow'
      cases hrow'
      rw [hcommitted] at h
      cases h.1
  · rfl

theorem preparesAgain (s : Store) : s.PreparesAgain := by
  intro now tokenId psk key drawn db' pending hok between later drawn' hordered hlater hvalid husable
  have hstep : ∀ (s : Store) (t : Nat × Transaction), Bound s.db tokenId psk key pending later →
      t.1 ≤ later → Bound (s.step t).db tokenId psk key pending later :=
    fun s t hi ht => hi.changes ht (changes_apply s.db t.1 t.2)
  -- the registration the first prepare answers with is there
  have hfirst : Bound db' tokenId psk key pending later := by
    obtain ⟨token, htoken, -, hpsk, ⟨rfl, row, hrow, hreserved, hfor, hkey, -, hstatus⟩ | ⟨rfl, hp⟩⟩ :=
      prepare_cases hok
    · exact ⟨⟨token, htoken, hpsk⟩, row, hrow, hreserved, hfor, hkey, hstatus, hvalid row hrow⟩
    · exact ⟨⟨token, by rw [hp.tokens]; exact htoken, hpsk⟩, _, hp.stored, rfl, rfl, rfl,
        by simp [preparedRow], hvalid _ hp.stored⟩
  have hbound := run_invariant hstep between ⟨db', now⟩ hfirst (times_le hordered hlater)
  exact hbound.prepare husable drawn'

theorem run_inv (past : List (Nat × Transaction)) : Inv (run step {} past).db := by
  have hstep : ∀ (s : Store) (t : Nat × Transaction), Inv s.db → True → Inv (s.step t).db :=
    fun s t hi _ => hi.changes (changes_apply s.db t.1 t.2)
  exact run_invariant hstep past {} Inv.empty (along_trivial past _)

/-- **The registration store**: after every sequence of transactions the tables agree, a prepare is
    repeatable, and a commit takes effect once. -/
theorem registration_store_sound (past : List (Nat × Transaction)) :
    Consistent (run step {} past).db ∧ (run step {} past).PreparesAgain ∧
      (run step {} past).CommitsOnce :=
  ⟨(run_inv past).consistent, preparesAgain _, commitsOnce _⟩

end Store

/-! ## 4. Tokens that are no longer usable -/

/-- A token is issued at time `0`, an Agent prepares at time `1`, and again at time `10`. -/
def preparedTwice (validFor : Option Nat) (between : List (Nat × Transaction)) :
    Except PrepareAgentRegistrationError PendingAgentRegistration :=
  ((run Store.step {}
    ((0, .insertToken "token" (.replicate 32 7) none validFor) ::
      (1, .prepare "token" (.replicate 32 7) (.replicate 32 1) (.replicate 16 1, "agent-1")) ::
        between)).db.prepareAgentRegistration 10 "token" (.replicate 32 7) (.replicate 32 1)
    (.replicate 16 2, "agent-2")).map Prod.snd

example : preparedTwice none [] = .ok ⟨.replicate 16 1, "agent-1"⟩ := by decide +kernel

/-- **Prepared again with another answer**, nine minutes before the registration expires: the token
    has been used by the commit, has been revoked, or was valid for five microseconds. -/
theorem prepare_not_repeatable :
    preparedTwice none [(2, .commit ⟨.replicate 16 1, "agent-1"⟩)] = .error .tokenAlreadyUsed ∧
    preparedTwice none [(2, .revokeToken "token")] = .error .invalidToken ∧
    preparedTwice (some 5) [] = .error .invalidToken := by
  decide +kernel

end Smalux.Server
