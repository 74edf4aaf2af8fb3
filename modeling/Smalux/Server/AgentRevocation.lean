/-
  Subject:   RevokeAgent against sessions that are being established
             (service/agent/transport/session.rs, service/agent/session_registry.rs,
             management/service.rs).

  Any number of workers of one Server: each runs one session or answers one RevokeAgent. A step is
  one database statement, one operation on the session registry (under its lock) or one step of the
  worker itself. A worker's number is its session id (`next_session_id` gives each session one of
  its own).

  * `Worker.act` -- one step of one worker;
  * **`revoked_agent_disconnected`** -- in every interleaving, once RevokeAgent has answered, every
    session of the Agent in its business loop has been cancelled.
-/
import Smalux.Lib.Fleet
import Smalux.Server.RegistryRuns

namespace Smalux.Server.AgentRevocation

open Lib Rotation ServerDatabase Table List

variable {db db' : ServerDatabase} {agentId : String} {now i : Nat} {s s' : Shared} {w : Worker}

/-! ## 1. The workers -/

/-- What the registry knows of a session that concerns revocations. -/
structure SessionEntry where
  agentId : Option String := none
  cancelled : Bool := false

/-- The database, the session registry, and the Agents whose revocation was answered. -/
structure Shared where
  db : ServerDatabase
  entries : Table Nat SessionEntry := .empty
  answered : List String := []

inductive Stage where
  | idle
  /-- registered, in the handshake or waiting for the first message -/
  | handshaking
  | registering (pending : PendingAgentRegistration)
  /-- the registration or authorization stage has given the Agent id -/
  | established (agentId : String)
  | authenticated (agentId : String)
  /-- the second look at the database has found the Agent active -/
  | rechecked (agentId : String)
  | business (agentId : String)
  | ended
  | removed
  /-- RevokeAgent: the read -/
  | findAgent (agentId : String)
  | updateAgent (agentId : String) (now : Nat)
  | disconnectAgent (agentId : String)
  | succeeded (agentId : String)
  | notFound
  deriving DecidableEq

structure Worker where
  id : Nat
  stage : Stage := .idle

inductive Act where
  | register
  | authorize (publicKey : NoisePublicKey)
  | prepare (now : Nat) (tokenId : String) (psk : RegistrationPsk) (publicKey : NoisePublicKey)
      (drawn : RegistrationId × String)
  | commit (now : Nat)
  | markAuthenticated
  | recheck
  | runBusiness
  /-- the session ends: rejected, cancelled, closed or failed -/
  | finish
  | remove
  | revokeAgent (agentId : String)
  | read (now : Nat)
  | update
  | disconnect
  /-- any other transaction on the database, by a worker that does nothing else -/
  | transaction (now : Nat) (t : Transaction)

/-- `disconnect_agent`. -/
def disconnectAgent (entries : Table Nat SessionEntry) (agentId : String) :
    Table Nat SessionEntry :=
  entries.mapVals fun entry =>
    if entry.agentId = some agentId then { entry with cancelled := true } else entry

/-- One step; one that is not next changes nothing. -/
def Worker.act (s : Shared) (w : Worker) : Act → Shared × Worker
  | .register =>
    match w.stage with
    | .idle => ({ s with entries := s.entries.insert w.id {} }, { w with stage := .handshaking })
    | _ => (s, w)
  | .authorize publicKey =>
    match w.stage, s.db.findAgentAuthorization publicKey with
    | .handshaking, .authorized agentId => (s, { w with stage := .established agentId })
    | .handshaking, _ => (s, { w with stage := .ended })
    | _, _ => (s, w)
  | .prepare now tokenId psk publicKey drawn =>
    match w.stage, s.db.prepareAgentRegistration now tokenId psk publicKey drawn with
    | .handshaking, .ok (db, pending) => ({ s with db }, { w with stage := .registering pending })
    | .handshaking, .error _ => (s, { w with stage := .ended })
    | _, _ => (s, w)
  | .commit now =>
    match w.stage with
    | .registering pending =>
      match s.db.commitAgentRegistration now pending with
      | .ok db => ({ s with db }, { w with stage := .established pending.agentId })
      | .error _ => (s, { w with stage := .ended })
    | _ => (s, w)
  | .markAuthenticated =>
    match w.stage with
    | .established agentId =>
      ({ s with
          entries := s.entries.modify w.id fun entry => { entry with agentId := some agentId } },
        { w with stage := .authenticated agentId })
    | _ => (s, w)
  | .recheck =>
    match w.stage with
    | .authenticated agentId =>
      if s.db.isAgentActive agentId then (s, { w with stage := .rechecked agentId })
      else (s, { w with stage := .ended })
    | _ => (s, w)
  | .runBusiness =>
    match w.stage with
    | .rechecked agentId => (s, { w with stage := .business agentId })
    | _ => (s, w)
  | .finish =>
    match w.stage with
    | .handshaking | .registering _ | .established _ | .authenticated _ | .rechecked _
    | .business _ => (s, { w with stage := .ended })
    | _ => (s, w)
  | .remove =>
    match w.stage with
    | .ended => ({ s with entries := s.entries.remove w.id }, { w with stage := .removed })
    | _ => (s, w)
  | .revokeAgent agentId =>
    match w.stage with
    | .idle => (s, { w with stage := .findAgent agentId })
    | _ => (s, w)
  | .read now =>
    match w.stage with
    | .findAgent agentId =>
      match s.db.agents.rows.get agentId with
      | none => (s, { w with stage := .notFound })
      | some agent =>
        if agent.isRevoked then (s, { w with stage := .disconnectAgent agentId })
        else (s, { w with stage := .updateAgent agentId now })
    | _ => (s, w)
  | .update =>
    match w.stage with
    | .updateAgent agentId now =>
      ({ s with db := s.db.setAgentRevoked agentId now },
        { w with stage := .disconnectAgent agentId })
    | _ => (s, w)
  | .disconnect =>
    match w.stage with
    | .disconnectAgent agentId =>
      ({ s with entries := disconnectAgent s.entries agentId, answered := agentId :: s.answered },
        { w with stage := .succeeded agentId })
    | _ => (s, w)
  | .transaction now t =>
    match w.stage with
    | .idle => ({ s with db := t.apply s.db now }, w)
    | _ => (s, w)

/-- Any number of workers. -/
abbrev Workers := Fleet Nat Shared Worker

def Workers.start (db : ServerDatabase) : Workers := ⟨{ db }, fun i => { id := i }⟩

def Workers.step (s : Workers) (move : Nat × Act) : Workers :=
  Fleet.step (fun s w => Worker.act s w) s move

/-- **Revocation is effective**: once a RevokeAgent has succeeded, every session of the Agent that is
    in its business loop has been cancelled. -/
def Workers.Effective (s : Workers) : Prop :=
  ∀ i j agentId, (s.members i).stage = .business agentId →
    (s.members j).stage = .succeeded agentId →
      ∃ entry, s.shared.entries.get i = some entry ∧ entry.cancelled = true

/-! ## 2. Agents in the database -/

/-- The row says that the Agent is revoked. -/
def Revoked (db : ServerDatabase) (agentId : String) : Prop :=
  ∃ agent, db.agents.rows.get agentId = some agent ∧ agent.isRevoked = true

def Known (db : ServerDatabase) (agentId : String) : Prop :=
  ∃ agent, db.agents.rows.get agentId = some agent

theorem Revoked.not_active (h : Revoked db agentId) : db.isAgentActive agentId = false := by
  obtain ⟨agent, hagent, hrevoked⟩ := h
  rw [AgentRow.isRevoked, Bool.and_eq_true, decide_eq_true_eq] at hrevoked
  rw [isAgentActive, hagent]
  simp [hrevoked.1]

/-- What a transaction does to the row of an Agent: nothing, or it revokes the Agent. -/
theorem agent_kept (hc : Changes db now db') {agent : AgentRow}
    (h : db.agents.rows.get agentId = some agent) :
    ∃ agent', db'.agents.rows.get agentId = some agent' ∧
      (agent' = agent ∨ agent'.isRevoked = true) := by
  cases hc with
  | nothing | revokesToken => exact ⟨agent, h, .inl rfl⟩
  | issues hi | prepares hi | thins hi => exact ⟨agent, by rw [hi.agents]; exact h, .inl rfl⟩
  | commits _ _ _ _ hcommit =>
    refine ⟨agent, ?_, .inl rfl⟩
    rw [hcommit.agents, get_insert, if_neg]
    · exact h
    · intro hsame
      rw [hsame, hcommit.idFree] at h
      cases h
  | revokesAgent =>
    rename_i revoked
    rw [show (db.setAgentRevoked revoked now).agents.rows.get agentId = _ from
      get_modify _ _ _ _, h]
    split
    · exact ⟨_, rfl, .inr (by simp [AgentRow.isRevoked])⟩
    · exact ⟨_, rfl, .inl rfl⟩

theorem Revoked.changes (h : Revoked db agentId) (hc : Changes db now db') : Revoked db' agentId := by
  obtain ⟨agent, hagent, hrevoked⟩ := h
  obtain ⟨agent', hagent', rfl | hrevoked'⟩ := agent_kept hc hagent
  · exact ⟨agent', hagent', hrevoked⟩
  · exact ⟨agent', hagent', hrevoked'⟩

theorem Known.changes (h : Known db agentId) (hc : Changes db now db') : Known db' agentId := by
  obtain ⟨agent, hagent⟩ := h
  obtain ⟨agent', hagent', -⟩ := agent_kept hc hagent
  exact ⟨agent', hagent'⟩

theorem Known.revoke (h : Known db agentId) (now : Nat) :
    Revoked (db.setAgentRevoked agentId now) agentId := by
  obtain ⟨agent, hagent⟩ := h
  refine ⟨{ agent with status := .revoked, revokedAt := some now }, ?_, by simp [AgentRow.isRevoked]⟩
  rw [show (db.setAgentRevoked agentId now).agents.rows.get agentId = _ from
    get_modify _ _ _ _, if_pos rfl, hagent]
  rfl

/-! ## 3. One step -/

/-- What a worker knows at each stage. -/
def Stage.Backed (s : Shared) (id : Nat) : Stage → Prop
  | .idle | .ended | .removed | .findAgent _ | .notFound => True
  | .handshaking | .registering _ | .established _ => ∃ entry, s.entries.get id = some entry
  | .authenticated agentId => ∃ cancelled, s.entries.get id = some ⟨some agentId, cancelled⟩
  | .rechecked agentId | .business agentId =>
    ∃ cancelled, s.entries.get id = some ⟨some agentId, cancelled⟩ ∧
      (agentId ∈ s.answered → cancelled = true)
  | .updateAgent agentId _ => Known s.db agentId
  | .disconnectAgent agentId => Revoked s.db agentId
  | .succeeded agentId => agentId ∈ s.answered

/-- An answered revocation is in the database. -/
def Shared.Persisted (s : Shared) : Prop := ∀ agentId ∈ s.answered, Revoked s.db agentId

/-- How the shared state looks to everybody but worker `i` after a step of `i`: entries are
    cancelled at most, and those of an Agent whose revocation is answered are. -/
structure Follows (i : Nat) (s s' : Shared) : Prop where
  entries : ∀ j entry, j ≠ i → s.entries.get j = some entry →
    ∃ cancelled, s'.entries.get j = some ⟨entry.agentId, cancelled⟩ ∧
      (entry.cancelled = true → cancelled = true) ∧
        ∀ agentId, entry.agentId = some agentId → agentId ∈ s'.answered →
          agentId ∈ s.answered ∨ cancelled = true
  revoked : ∀ agentId, Revoked s.db agentId → Revoked s'.db agentId
  known : ∀ agentId, Known s.db agentId → Known s'.db agentId
  answered : ∀ agentId ∈ s.answered, agentId ∈ s'.answered

theorem Stage.Backed.follows {j : Nat} {stage : Stage} (hj : j ≠ i) (hf : Follows i s s')
    (h : stage.Backed s j) : stage.Backed s' j := by
  cases stage with
  | idle | ended | removed | findAgent | notFound => exact trivial
  | handshaking | registering _ | established _ =>
    obtain ⟨entry, hentry⟩ := h
    obtain ⟨cancelled, hentry', -⟩ := hf.entries j entry hj hentry
    exact ⟨_, hentry'⟩
  | authenticated =>
    obtain ⟨cancelled, hentry⟩ := h
    obtain ⟨cancelled', hentry', -⟩ := hf.entries j _ hj hentry
    exact ⟨cancelled', hentry'⟩
  | rechecked agentId | business agentId =>
    obtain ⟨cancelled, hentry, hanswered⟩ := h
    obtain ⟨cancelled', hentry', hstays, hnew⟩ := hf.entries j _ hj hentry
    refine ⟨cancelled', hentry', fun hin => ?_⟩
    exact (hnew agentId rfl hin).elim (fun hold => hstays (hanswered hold)) id
  | updateAgent agentId => exact hf.known agentId h
  | disconnectAgent agentId => exact hf.revoked agentId h
  | succeeded agentId => exact hf.answered agentId h

/-- The database changes, and at most the worker's own entry. -/
theorem Follows.own (hdb : Changes s.db now s'.db)
    (hentries : ∀ j, j ≠ i → s'.entries.get j = s.entries.get j)
    (hanswered : s'.answered = s.answered) : Follows i s s' where
  entries := by
    intro j entry hj hentry
    refine ⟨entry.cancelled, (hentries j hj).trans hentry, id, fun agentId _ hin => .inl ?_⟩
    rw [← hanswered]
    exact hin
  revoked := fun _ h => h.changes hdb
  known := fun _ h => h.changes hdb
  answered := fun _ h => by rw [hanswered]; exact h

theorem Shared.Persisted.own (h : s.Persisted) (hdb : Changes s.db now s'.db)
    (hanswered : s'.answered = s.answered) : s'.Persisted := by
  intro agentId hin
  rw [hanswered] at hin
  exact (h agentId hin).changes hdb

/-- What one step of worker `i` gives. -/
structure Step (i : Nat) (s : Shared) (next : Shared × Worker) : Prop where
  persisted : next.1.Persisted
  id_eq : next.2.id = i
  own : next.2.stage.Backed next.1 i
  others : Follows i s next.1

theorem Step.ofOwn (h : s.Persisted) (hdb : Changes s.db now s'.db)
    (hentries : ∀ j, j ≠ i → s'.entries.get j = s.entries.get j)
    (hanswered : s'.answered = s.answered) (hid : w.id = i) (hown : w.stage.Backed s' i) :
    Step i s (s', w) :=
  ⟨h.own hdb hanswered, hid, hown, .own hdb hentries hanswered⟩

/-- Only the worker itself has changed. -/
theorem Step.local (h : s.Persisted) (hid : w.id = i) (hown : w.stage.Backed s i) :
    Step i s (s, w) :=
  .ofOwn h (Changes.nothing : Changes s.db 0 s.db) (fun _ _ => rfl) rfl hid hown

/-- `disconnect_agent`, seen from every session. -/
theorem follows_disconnect (agentId : String) : Follows i s { s with
      entries := disconnectAgent s.entries agentId, answered := agentId :: s.answered } where
  entries := by
    intro j entry _ hentry
    have hget : (disconnectAgent s.entries agentId).get j = (s.entries.get j).map fun entry =>
        if entry.agentId = some agentId then { entry with cancelled := true } else entry :=
      get_mapVals _ _ _
    rw [hentry] at hget
    by_cases hsame : entry.agentId = some agentId
    · refine ⟨true, hget.trans ?_, fun _ => rfl, fun _ _ _ => .inr rfl⟩
      simp [hsame]
    · refine ⟨entry.cancelled, hget.trans ?_, id, fun other hother hin => .inl ?_⟩
      · simp [hsame]
      · refine (mem_cons.mp hin).resolve_left fun he => hsame ?_
        rw [← he]
        exact hother
  revoked := fun _ h => h
  known := fun _ h => h
  answered := fun _ => mem_cons_of_mem _

/-- **One step of a worker.** -/
theorem Worker.act_step (hs : s.Persisted) (hid : w.id = i) (hw : w.stage.Backed s i) (a : Act) :
    Step i s (w.act s a) := by
  cases a <;> simp only [Worker.act]
  case register =>
    split
    · refine .ofOwn hs (Changes.nothing : Changes s.db 0 s.db) (fun j hj => ?_) rfl hid ⟨{}, ?_⟩
      · rw [get_insert, if_neg (hid ▸ hj)]
      · rw [get_insert, if_pos hid.symm]
    · exact .local hs hid hw
  case authorize =>
    split
    · rename_i hstage _
      rw [hstage] at hw
      exact .local hs hid hw
    · exact .local hs hid trivial
    · exact .local hs hid hw
  case prepare now tokenId psk publicKey drawn =>
    split
    · rename_i db pending hstage hok
      rw [hstage] at hw
      have hdb : Changes s.db now db := by
        have := changes_apply s.db now (.prepare tokenId psk publicKey drawn)
        simpa only [Transaction.apply, hok] using this
      exact .ofOwn hs hdb (fun _ _ => rfl) rfl hid hw
    · exact .local hs hid trivial
    · exact .local hs hid hw
  case commit now =>
    split
    · rename_i pending hstage
      rw [hstage] at hw
      split
      · rename_i db hok
        have hdb : Changes s.db now db := by
          have := changes_apply s.db now (.commit pending)
          simpa only [Transaction.apply, hok] using this
        exact .ofOwn hs hdb (fun _ _ => rfl) rfl hid hw
      · exact .local hs hid trivial
    · exact .local hs hid hw
  case markAuthenticated =>
    split
    · rename_i agentId hstage
      rw [hstage] at hw
      obtain ⟨entry, hentry⟩ := hw
      refine .ofOwn hs (Changes.nothing : Changes s.db 0 s.db) (fun j hj => ?_) rfl hid
        ⟨entry.cancelled, ?_⟩
      · rw [get_modify, if_neg (hid ▸ hj)]
      · rw [get_modify, if_pos hid.symm, hentry]
        rfl
    · exact .local hs hid hw
  case recheck =>
    split
    · rename_i agentId hstage
      rw [hstage] at hw
      split
      · rename_i hactive
        -- an answered revocation is in the database, and would have been seen
        obtain ⟨cancelled, hentry⟩ := hw
        refine .local hs hid ⟨cancelled, hentry, fun hin => ?_⟩
        rw [(hs agentId hin).not_active] at hactive
        cases hactive
      · exact .local hs hid trivial
    · exact .local hs hid hw
  case runBusiness =>
    split
    · rename_i hstage
      rw [hstage] at hw
      exact .local hs hid hw
    · exact .local hs hid hw
  case finish =>
    split <;> first
      | exact .local hs hid trivial
      | exact .local hs hid hw
  case remove =>
    split
    · refine .ofOwn hs (Changes.nothing : Changes s.db 0 s.db) (fun j hj => ?_) rfl hid trivial
      rw [get_remove, if_neg (hid ▸ hj)]
    · exact .local hs hid hw
  case revokeAgent =>
    split
    · exact .local hs hid trivial
    · exact .local hs hid hw
  case read =>
    split
    · split
      · exact .local hs hid trivial
      · rename_i agent hagent
        split
        · rename_i hrevoked
          exact .local hs hid ⟨agent, hagent, hrevoked⟩
        · exact .local hs hid ⟨agent, hagent⟩
    · exact .local hs hid hw
  case update =>
    split
    · rename_i agentId now hstage
      rw [hstage] at hw
      exact .ofOwn hs (Changes.revokesAgent : Changes s.db now _) (fun _ _ => rfl) rfl hid
        (Known.revoke hw now)
    · exact .local hs hid hw
  case disconnect =>
    split
    · rename_i agentId hstage
      rw [hstage] at hw
      refine ⟨fun other hother => ?_, hid, mem_cons_self, follows_disconnect agentId⟩
      rcases mem_cons.mp hother with rfl | hother
      · exact hw
      · exact hs other hother
    · exact .local hs hid hw
  case transaction now t =>
    split
    · rename_i hstage
      refine .ofOwn hs (changes_apply s.db now t) (fun _ _ => rfl) rfl hid ?_
      rw [hstage]
      exact trivial
    · exact .local hs hid hw

/-! ## 4. Every interleaving -/

theorem Workers.step_inv {s : Workers} {move : Nat × Act}
    (hi : s.Holds Shared.Persisted fun i s w => w.id = i ∧ w.stage.Backed s i) :
    (s.step move).Holds Shared.Persisted fun i s w => w.id = i ∧ w.stage.Backed s i := by
  obtain ⟨i, a⟩ := move
  have hstep := Worker.act_step hi.shared (hi.members i).1 (hi.members i).2 a
  exact hi.step hstep.persisted ⟨hstep.id_eq, hstep.own⟩ fun j w hj hw =>
    ⟨hw.1, hw.2.follows hj hstep.others⟩

/-- **Revocation is effective**, from every database that serial transactions have led to and in
    every interleaving of any number of sessions and RevokeAgent calls. -/
theorem revoked_agent_disconnected (past : List (Nat × Transaction)) (moves : List (Nat × Act)) :
    Throughout Workers.step Workers.Effective (.start (run Store.step {} past).db) moves := by
  have hstart : (Workers.start (run Store.step {} past).db).Holds Shared.Persisted
      fun i s w => w.id = i ∧ w.stage.Backed s i :=
    ⟨nofun, fun _ => ⟨rfl, trivial⟩⟩
  refine throughout_of_invariant (fun _ _ hi _ => Workers.step_inv hi) (fun s hi => ?_) hstart
    (along_trivial moves _)
  intro i j agentId hbusiness hsucceeded
  have hi' := (hi.members i).2
  have hj' := (hi.members j).2
  rw [hbusiness] at hi'
  rw [hsucceeded] at hj'
  obtain ⟨cancelled, hentry, hanswered⟩ := hi'
  exact ⟨_, hentry, hanswered hj'⟩

/-- An Agent registers (worker 0) and is revoked (worker 1) when its session is in the business
    loop. -/
def revokedInBusiness : Workers :=
  run Workers.step
    (.start (run Store.step {} [(0, .insertToken "token" (.replicate 32 7) none none)]).db)
    [(0, .register), (0, .prepare 1 "token" (.replicate 32 7) (.replicate 32 1)
      (.replicate 16 1, "agent-1")), (0, .commit 2), (0, .markAuthenticated), (0, .recheck),
      (0, .runBusiness), (1, .revokeAgent "agent-1"), (1, .read 3), (1, .update), (1, .disconnect)]

example : (revokedInBusiness.members 0).stage = .business "agent-1" ∧
    (revokedInBusiness.members 1).stage = .succeeded "agent-1" ∧
      (revokedInBusiness.shared.entries.get 0).any (·.cancelled) = true := by
  decide +kernel

end Smalux.Server.AgentRevocation
