/-
  Subject:   `revoke_registration_token` and `commit_agent_registration` statement by statement.

  Any number of processes work on one database under read committed: a statement sees what is
  committed, an update by the primary key does not look at what was read before it, and the writes of
  a transaction become visible together at its `COMMIT`. Until then its update of the token keeps
  that row locked; another update of it waits.

  * `Process.act` -- one statement of one process;
  * **`revoked_tokens_create_no_agent`** -- in every interleaving in which no update of a revocation
    finds the token used and no `COMMIT` finds it revoked.
-/
import Smalux.Lib.Fleet
import Smalux.Server.RegistryRuns

namespace Smalux.Server.TokenRevocation

open Lib Rotation ServerDatabase Table List

variable {db' : ServerDatabase} {call : CommitCall} {s' : Shared}

variable {s : Shared} {tokenId : String} {token : RegistrationToken} {db : ServerDatabase}
  {p : Process}

/-! ## 1. The processes -/

/-- What `commit_agent_registration` was called with and has read. -/
structure CommitCall where
  pending : PendingAgentRegistration
  now : Nat
  row : AgentRegistration

/-- The statement that comes next. -/
inductive Process where
  | idle
  /-- `revoke_registration_token`: the read -/
  | findToken (tokenId : String)
  /-- the token was active: the update -/
  | updateToken (tokenId : String)
  /-- `commit_agent_registration`: the first read -/
  | findRegistration (pending : PendingAgentRegistration) (now : Nat)
  /-- the registration was committed: the read of its Agent -/
  | findCommittedAgent (agentId : String)
  | findRegistrationToken (call : CommitCall)
  | findReservedAgent (call : CommitCall)
  | insertAgent (call : CommitCall)
  | updateRegistration (call : CommitCall)
  | consumeToken (call : CommitCall)
  /-- `COMMIT` -/
  | publish (call : CommitCall)

inductive Act where
  | revoke (tokenId : String)
  | commit (pending : PendingAgentRegistration) (now : Nat)
  | statement
  /-- the statement fails or the process is lost: the transaction is rolled back -/
  | fail

/-- The committed data, the token rows that are locked, and the tokens that a revocation has reported
    as revoked. -/
structure Shared where
  db : ServerDatabase
  locked : List String := []
  reported : List String := []

def Shared.unlock (s : Shared) (tokenId : String) : Shared :=
  { s with locked := s.locked.erase tokenId }

/-- The next statement of a process. -/
def Process.statement (s : Shared) : Process → Shared × Process
  | .idle => (s, .idle)
  | .findToken tokenId =>
    match revokeTokenOutcome (s.db.tokens.get tokenId) with
    | none => (s, .updateToken tokenId)
    | some .alreadyRevoked => ({ s with reported := tokenId :: s.reported }, .idle)
    | some _ => (s, .idle)
  | .updateToken tokenId =>
    if tokenId ∈ s.locked then (s, .updateToken tokenId)
    else
      ({ s with db := s.db.setTokenRevoked tokenId, reported := tokenId :: s.reported }, .idle)
  | .findRegistration pending now =>
    match checkRegistration pending (s.db.registrations.rows.get pending.registrationId) with
    | .error _ => (s, .idle)
    | .ok row =>
      if row.status = .committed then
        match row.agentId with
        | none => (s, .idle)
        | some agentId => (s, .findCommittedAgent agentId)
      else
        match checkCommittable now row with
        | .error _ => (s, .idle)
        | .ok () => (s, .findRegistrationToken ⟨pending, now, row⟩)
  -- the transaction ends, with `COMMIT` or with an error, and has written nothing
  | .findCommittedAgent _ => (s, .idle)
  | .findRegistrationToken call =>
    match checkToken call.now (s.db.tokens.get call.row.tokenId) with
    | .error _ => (s, .idle)
    | .ok () => (s, .findReservedAgent call)
  | .findReservedAgent call =>
    match checkReservedAgent (s.db.agents.rows.get call.row.reservedAgentId) with
    | .error _ => (s, .idle)
    | .ok () => (s, .insertAgent call)
  | .insertAgent call =>
    match s.db.agents.insert call.row.reservedAgentId
        ⟨call.row.agentName, call.row.agentPublicKey, .active, none⟩ with
    | .error _ => (s, .idle)
    | .ok _ => (s, .updateRegistration call)
  | .updateRegistration call => (s, .consumeToken call)
  | .consumeToken call =>
    if call.row.tokenId ∈ s.locked then (s, .consumeToken call)
    else ({ s with locked := call.row.tokenId :: s.locked }, .publish call)
  | .publish call =>
    match s.db.writeCommit call.now call.pending call.row with
    | .error _ => (s.unlock call.row.tokenId, .idle)
    | .ok db => (Shared.unlock { s with db } call.row.tokenId, .idle)

def Process.act (s : Shared) (p : Process) : Act → Shared × Process
  | .revoke tokenId =>
    match p with
    | .idle => (s, .findToken tokenId)
    | _ => (s, p)
  | .commit pending now =>
    match p with
    | .idle => (s, .findRegistration pending now)
    | _ => (s, p)
  | .statement => p.statement s
  | .fail =>
    match p with
    | .publish call => (s.unlock call.row.tokenId, .idle)
    | _ => (s, .idle)

/-- Any number of processes on one database. -/
abbrev Processes (I : Type) := Fleet I Shared Process

def Processes.start (I : Type) (db : ServerDatabase) : Processes I := ⟨{ db }, fun _ => .idle⟩

def Processes.step {I : Type} [DecidableEq I] (s : Processes I) (move : I × Act) : Processes I :=
  Fleet.step (fun s p => Process.act s p) s move

/-! ## 2. The promise and the condition -/

/-- No Agent comes from a token that was reported as revoked, and the token of a committed
    registration is used. -/
structure Shared.Sound (s : Shared) : Prop where
  revoked : ∀ tokenId ∈ s.reported, ∀ id, ¬ CommittedFor s.db tokenId id
  used : ∀ tokenId id, CommittedFor s.db tokenId id →
    ∃ token, s.db.tokens.get tokenId = some token ∧ token.status = .used

/-- The token does not have this status. -/
def Shared.isNot (s : Shared) (status : TokenStatus) (tokenId : String) : Bool :=
  (s.db.tokens.get tokenId).all (·.status ≠ status)

/-- The update of a revocation does not find the token used, and a `COMMIT` does not find it
    revoked. -/
def Process.isClear (s : Shared) : Process → Act → Bool
  | .updateToken tokenId, .statement => s.isNot .used tokenId
  | .publish call, .statement => s.isNot .revoked call.row.tokenId
  | _, _ => true

def Processes.Clear {I : Type} (s : Processes I) (move : I × Act) : Prop :=
  (s.members move.1).isClear s.shared move.2 = true
  deriving Decidable

theorem Shared.isNot_get {status : TokenStatus} (h : s.isNot status tokenId = true)
    (htoken : s.db.tokens.get tokenId = some token) : token.status ≠ status := by
  rw [Shared.isNot, htoken] at h
  simpa using h

def Processes.Sound {I : Type} (s : Processes I) : Prop := s.shared.Sound

/-! ## 3. One statement -/

/-- The registration is there as it was read, or has been committed since. -/
def Keeps.Row (db : ServerDatabase) (id : RegistrationId) (row : AgentRegistration) : Prop :=
  db.registrations.rows.get id = some row ∨
    ∃ row', db.registrations.rows.get id = some row' ∧
      row'.reservedAgentId = row.reservedAgentId ∧ row'.status = .committed

def CommitCall.Backed (db : ServerDatabase) (call : CommitCall) : Prop :=
  call.row.status = .prepared ∧ Keeps.Row db call.pending.registrationId call.row

/-- What a process knows at each point. -/
def Process.Backed (s : Shared) : Process → Prop
  | .idle | .findToken _ | .findRegistration _ _ | .findCommittedAgent _ => True
  | .updateToken tokenId => ∃ token, s.db.tokens.get tokenId = some token
  | .findRegistrationToken call => call.Backed s.db
  | .findReservedAgent call | .insertAgent call | .updateRegistration call | .consumeToken call
  | .publish call =>
    call.Backed s.db ∧ ∃ token, s.db.tokens.get call.row.tokenId = some token

/-- The tables agree, and the reported tokens are revoked. -/
structure Shared.Inv (s : Shared) : Prop where
  tables : Server.Inv s.db
  reported : ∀ tokenId ∈ s.reported,
    ∃ token, s.db.tokens.get tokenId = some token ∧ token.status = .revoked

theorem Shared.Inv.sound (h : s.Inv) : s.Sound where
  used := by
    rintro tokenId id ⟨row, hrow, rfl, hcommitted⟩
    exact (h.tables.committed id row hrow hcommitted).1
  revoked := by
    rintro tokenId hreported id ⟨row, hrow, rfl, hcommitted⟩
    obtain ⟨token, htoken, hrevoked⟩ := h.reported _ hreported
    obtain ⟨token', htoken', hused⟩ := (h.tables.committed id row hrow hcommitted).1
    rw [htoken] at htoken'
    cases htoken'
    rw [hrevoked] at hused
    cases hused

/-- Rows stay, and registrations stay as they are or become committed. -/
structure Keeps (db db' : ServerDatabase) : Prop where
  rows : ∀ i row, db.registrations.rows.get i = some row → Keeps.Row db' i row
  tokens : ∀ i token, db.tokens.get i = some token → ∃ token', db'.tokens.get i = some token'

theorem Keeps.refl (db : ServerDatabase) : Keeps db db :=
  ⟨fun _ _ h => .inl h, fun _ token h => ⟨token, h⟩⟩

theorem keeps_setTokenRevoked (db : ServerDatabase) (tokenId : String) :
    Keeps db (db.setTokenRevoked tokenId) := by
  refine ⟨fun _ _ h => .inl h, fun i token h => ?_⟩
  rw [show (db.setTokenRevoked tokenId).tokens.get i = _ from get_modify _ _ _ _, h]
  split <;> exact ⟨_, rfl⟩

theorem keeps_commits {now : Nat} {pending : PendingAgentRegistration} {row : AgentRegistration}
    (hc : Commits db now pending row db') : Keeps db db' := by
  refine ⟨fun i other h => ?_, fun i token h => ?_⟩
  · have hget := get_modify db.registrations.rows pending.registrationId i fun row =>
      { row with agentId := some pending.agentId, status := .committed, committedAt := some now }
    rw [h] at hget
    unfold Keeps.Row
    rw [hc.registrations]
    split at hget
    · exact .inr ⟨_, hget, rfl, rfl⟩
    · exact .inl hget
  · rw [hc.tokens, get_modify, h]
    split <;> exact ⟨_, rfl⟩

theorem CommitCall.Backed.keeps (h : call.Backed db) (hk : Keeps db db') : call.Backed db' := by
  refine ⟨h.1, ?_⟩
  rcases h.2 with hrow | ⟨row, hrow, hreserved, hcommitted⟩
  · exact hk.rows _ _ hrow
  · rcases hk.rows _ _ hrow with hrow' | ⟨row', hrow', hreserved', hcommitted'⟩
    · exact .inr ⟨row, hrow', hreserved, hcommitted⟩
    · exact .inr ⟨row', hrow', hreserved'.trans hreserved, hcommitted'⟩

theorem Process.Backed.keeps (h : p.Backed s) (hk : Keeps s.db s'.db) : p.Backed s' := by
  cases p with
  | idle | findToken | findRegistration | findCommittedAgent => exact trivial
  | updateToken =>
    obtain ⟨token, htoken⟩ := h
    exact hk.tokens _ token htoken
  | findRegistrationToken => exact CommitCall.Backed.keeps h hk
  | findReservedAgent call | insertAgent call | updateRegistration call | consumeToken call
  | publish call =>
    obtain ⟨hcall, token, htoken⟩ := h
    exact ⟨hcall.keeps hk, hk.tokens _ token htoken⟩

/-- What is kept in view of a change of the shared state, and what becomes of the process. -/
structure Keeps.Step (s : Shared) (next : Shared × Process) : Prop where
  inv : next.1.Inv
  own : next.2.Backed next.1
  others : Keeps s.db next.1.db

theorem Keeps.Step.same (hs : s.Inv) (hdb : s'.db = s.db) (hreported : s'.reported = s.reported)
    (hp : p.Backed s) : Keeps.Step s (s', p) := by
  have hk : Keeps s.db s'.db := hdb ▸ Keeps.refl s.db
  refine ⟨⟨hdb ▸ hs.tables, fun tokenId h => ?_⟩, hp.keeps hk, hk⟩
  rw [hdb]
  exact hs.reported tokenId (hreported ▸ h)

/-- A revocation is reported: the token is revoked from now on. -/
theorem Shared.Inv.report (hs : s.Inv) (htoken : s.db.tokens.get tokenId = some token)
    (hrevoked : token.status = .revoked) :
    Shared.Inv { s with reported := tokenId :: s.reported } := by
  refine ⟨hs.tables, fun other hother => ?_⟩
  rcases mem_cons.mp hother with rfl | hother
  · exact ⟨token, htoken, hrevoked⟩
  · exact hs.reported other hother

theorem Shared.Inv.revokeToken (hs : s.Inv) (htoken : s.db.tokens.get tokenId = some token)
    (hclear : s.isNot .used tokenId = true) : Shared.Inv
      { s with db := s.db.setTokenRevoked tokenId, reported := tokenId :: s.reported } := by
  have hget : ∀ i, (s.db.setTokenRevoked tokenId).tokens.get i = if i = tokenId then
      (s.db.tokens.get i).map fun token => { token with status := .revoked }
      else s.db.tokens.get i := fun i => get_modify _ _ _ _
  refine ⟨hs.tables.revokesToken htoken (Shared.isNot_get hclear htoken), fun other hother => ?_⟩
  rw [hget]
  by_cases hsame : other = tokenId
  · rw [if_pos hsame, hsame, htoken]
    exact ⟨_, rfl, rfl⟩
  · rw [if_neg hsame]
    exact hs.reported other ((mem_cons.mp hother).resolve_left hsame)

/-- **The `COMMIT` of a registration** whose token is not revoked. -/
theorem Shared.Inv.publish (hs : s.Inv) (hcall : call.Backed s.db)
    (htoken : ∃ token, s.db.tokens.get call.row.tokenId = some token)
    (hclear : s.isNot .revoked call.row.tokenId = true)
    (hc : Commits s.db call.now call.pending call.row db) : Shared.Inv { s with db } := by
  refine ⟨?_, fun tokenId hreported => ?_⟩
  · rcases hcall.2 with hrow | ⟨row, hrow, hreserved, hcommitted⟩
    · exact hs.tables.commits hrow hcall.1 htoken hc
    · -- somebody else has committed it: the Agent is there, and the insert has failed
      obtain ⟨agent, hagent, -⟩ := (hs.tables.committed _ row hrow hcommitted).2
      rw [hreserved, hc.idFree] at hagent
      cases hagent
  · obtain ⟨token, htoken, hrevoked⟩ := hs.reported tokenId hreported
    have hne : tokenId ≠ call.row.tokenId := fun he =>
      Shared.isNot_get hclear (he ▸ htoken) hrevoked
    refine ⟨token, ?_, hrevoked⟩
    rw [hc.tokens, get_modify, if_neg hne]
    exact htoken

/-- **One statement of a process.** -/
theorem Process.statement_keeps (hs : s.Inv) (hp : p.Backed s)
    (hclear : p.isClear s .statement = true) : Keeps.Step s (p.statement s) := by
  cases p <;> simp only [Process.statement]
  case idle | findCommittedAgent => exact .same hs rfl rfl trivial
  case findToken =>
    split
    · rename_i houtcome
      obtain ⟨token, htoken, -⟩ := revokeTokenOutcome_none houtcome
      exact .same hs rfl rfl ⟨token, htoken⟩
    · rename_i houtcome
      obtain ⟨token, htoken, hrevoked⟩ := revokeTokenOutcome_alreadyRevoked houtcome
      exact ⟨hs.report htoken hrevoked, trivial, Keeps.refl _⟩
    · exact .same hs rfl rfl trivial
  case updateToken tokenId =>
    obtain ⟨token, htoken⟩ := hp
    split
    · exact .same hs rfl rfl ⟨token, htoken⟩
    · exact ⟨hs.revokeToken htoken hclear, trivial, keeps_setTokenRevoked s.db tokenId⟩
  case findRegistration =>
    split
    · exact .same hs rfl rfl trivial
    · rename_i row hread
      split
      · split <;> exact .same hs rfl rfl trivial
      · split
        · exact .same hs rfl rfl trivial
        · rename_i hcommittable
          exact .same hs rfl rfl ⟨(checkCommittable_ok hcommittable).1,
            .inl (checkRegistration_ok hread).1⟩
  case findRegistrationToken =>
    split
    · exact .same hs rfl rfl trivial
    · rename_i hread
      obtain ⟨token, htoken, -⟩ := checkToken_ok hread
      exact .same hs rfl rfl ⟨hp, token, htoken⟩
  case findReservedAgent | insertAgent =>
    split
    · exact .same hs rfl rfl trivial
    · exact .same hs rfl rfl hp
  case updateRegistration => exact .same hs rfl rfl hp
  case consumeToken =>
    split <;> exact .same hs rfl rfl hp
  case publish =>
    split
    · exact .same hs rfl rfl trivial
    · rename_i db hwrite
      have hc := writeCommit_ok hwrite
      have hpublish := hs.publish hp.1 hp.2 hclear hc
      exact ⟨⟨hpublish.tables, hpublish.reported⟩, trivial, keeps_commits hc⟩

theorem Process.act_keeps {a : Act} (hs : s.Inv) (hp : p.Backed s) (hclear : p.isClear s a = true) :
    Keeps.Step s (p.act s a) := by
  cases a with
  | revoke | commit =>
    simp only [Process.act]
    split
    · exact .same hs rfl rfl trivial
    · exact .same hs rfl rfl hp
  | statement => exact Process.statement_keeps hs hp hclear
  | fail =>
    simp only [Process.act]
    split <;> exact .same hs rfl rfl trivial

/-! ## 4. Every interleaving -/

theorem Processes.step_inv {I : Type} [DecidableEq I] {s : Processes I} {move : I × Act}
    (hi : s.Holds Shared.Inv fun _ s p => p.Backed s) (hclear : s.Clear move) :
    (s.step move).Holds Shared.Inv fun _ s p => p.Backed s := by
  obtain ⟨i, a⟩ := move
  have hstep := Process.act_keeps hi.shared (hi.members i) hclear
  exact hi.step hstep.inv hstep.own fun _ _ _ hp => hp.keeps hstep.others

/-- **Revocation against registration**: from every database that serial transactions have led to,
    in every interleaving of any number of revocations and commits in which no update of a revocation
    finds the token used and no `COMMIT` finds it revoked, no Agent ever comes from a token that was
    reported as revoked, and the token of a committed registration stays used. -/
theorem revoked_tokens_create_no_agent {I : Type} [DecidableEq I] (past : List (Nat × Transaction))
    (moves : List (I × Act))
    (h : Along Processes.step Processes.Clear (.start I (run Store.step {} past).db) moves) :
    Throughout Processes.step Processes.Sound (.start I (run Store.step {} past).db) moves := by
  have hstart : (Processes.start I (run Store.step {} past).db).Holds Shared.Inv
      fun _ s p => p.Backed s :=
    ⟨⟨Store.run_inv past, nofun⟩, fun _ => trivial⟩
  exact throughout_of_invariant (fun _ _ hi hc => Processes.step_inv hi hc)
    (fun _ hi => hi.shared.sound) hstart h

/-! ## 5. One revocation and one registration -/

/-- A token is issued and an Agent prepares. -/
def onePrepared : List (Nat × Transaction) :=
  [(0, .insertToken "token" (.replicate 32 7) none none),
    (1, .prepare "token" (.replicate 32 7) (.replicate 32 1) (.replicate 16 1, "agent-1"))]

def start : Processes Nat := .start Nat (run Store.step {} onePrepared).db

/-- Process `i` executes `n` statements. -/
def statements (i n : Nat) : List (Nat × Act) := List.replicate n (i, .statement)

/-- Process `0` begins a revocation and process `1` a commit. -/
def bothBegin : List (Nat × Act) :=
  [(0, .revoke "token"), (1, .commit ⟨.replicate 16 1, "agent-1"⟩ 2)]

/-- One after the other: the revocation, and then the commit, which finds the token revoked. -/
theorem revocation_in_turn :
    Throughout Processes.step Processes.Sound (.start Nat (run Store.step {} onePrepared).db)
      (bothBegin ++ statements 0 2 ++ statements 1 2) :=
  revoked_tokens_create_no_agent onePrepared _ (by decide +kernel)

/-- The token was reported as revoked, and its registration is committed. -/
theorem not_sound_of_reported {s : Processes Nat} {moves : List (Nat × Act)}
    (h : "token" ∈ (run Processes.step s moves).shared.reported ∧
      ((run Processes.step s moves).shared.db.registrations.rows.get (.replicate 16 1)).any
        (fun row => row.tokenId = "token" && row.status = .committed) = true) :
    ¬ Throughout Processes.step Processes.Sound s moves := by
  intro hsound
  obtain ⟨hreported, hcommitted⟩ := h
  cases hrow : (run Processes.step s moves).shared.db.registrations.rows.get (.replicate 16 1) with
  | none =>
    rw [hrow] at hcommitted
    cases hcommitted
  | some row =>
    rw [hrow] at hcommitted
    simp only [Option.any_some, Bool.and_eq_true, decide_eq_true_eq] at hcommitted
    exact (hsound _ (prefix_refl _)).revoked "token" hreported _
      ⟨row, hrow, hcommitted.1, hcommitted.2⟩

/-- **An Agent from a revoked token**: the revocation reads the token, and updates it when the
    registration is committed; or the commit reads the token, and is published when the token has
    been revoked. -/
theorem revoked_token_creates_agent : (¬ Throughout Processes.step Processes.Sound start
      (bothBegin ++ statements 0 1 ++ statements 1 7 ++ statements 0 1)) ∧
    ¬ Throughout Processes.step Processes.Sound start
      (bothBegin ++ statements 1 2 ++ statements 0 2 ++ statements 1 5) :=
  ⟨not_sound_of_reported (by decide +kernel), not_sound_of_reported (by decide +kernel)⟩

end Smalux.Server.TokenRevocation
