/-
  Subject:   What one step of a party can do.

  The code between two await points is summed up by relations that name every effect on the keys,
  the buffer and what the party has given out; the invariants of the session are proved from them.
-/
import Smalux.Protocol.Session

namespace Smalux.Protocol

open Lib

/-! ## 1. Encrypting and decrypting -/

section Crypto

variable {M B : Type} {prost : Prost M B}

/-- A frame that is decrypted was sealed with the receiving cipher. -/
theorem decrypt_ok {s s' : SecureSession} {frame : ProtocolFrame B} {message : M}
    (h : s.decrypt prost frame = (.ok message, s')) :
    ∃ c : Sealed B, frame = .ciphertext c ∧ c.cipher = s.transport.receiving ∧
      prost.decode c.body = some message ∧ s' = s.afterReading := by
  unfold SecureSession.decrypt at h
  split at h
  · rename_i c
    split at h
    · cases h
    · unfold TransportState.readMessage Cipher.decrypt at h
      by_cases hlen : maxMessageLen < prost.len c.body + tagLen
      · simp [hlen] at h
      · by_cases hroom : maxNoisePlaintextBytes < prost.len c.body
        · simp [hlen, hroom] at h
        · by_cases hc : c.cipher = s.transport.receiving
          · simp only [if_neg hlen, if_neg hroom, if_pos hc] at h
            cases hd : prost.decode c.body with
            | none => simp [hd] at h
            | some =>
              simp only [hd, Prod.mk.injEq, Except.ok.injEq] at h
              obtain ⟨rfl, rfl⟩ := h
              exact ⟨c, rfl, hc, hd, rfl⟩
          · simp [hlen, hroom, hc] at h
  · cases h

end Crypto

/-! ## 2. Running on -/

section Effects

variable {β B : Type} {prost : Prost (SecureMessage β) B} {w : Wake β}

/-- The keys are `secure` now; nothing else the invariants of a session speak of has changed. -/
structure Keyed (s : TonicNoiseSession β) (secure : SecureSession) (s' : TonicNoiseSession β) :
    Prop where
  secure : s'.secure = secure
  role : s'.role = s.role
  buffered : s'.bufferedMessages = s.bufferedMessages

abbrev Keeps (s s' : TonicNoiseSession β) : Prop := Keyed s s.secure s'

theorem Keeps.refl (s : TonicNoiseSession β) : Keeps s s := ⟨rfl, rfl, rfl⟩

theorem Keeps.trans {s s' s'' : TonicNoiseSession β} (h : Keeps s s') (h' : Keeps s' s'') :
    Keeps s s'' :=
  ⟨h'.secure.trans h.secure, h'.role.trans h.role, h'.buffered.trans h.buffered⟩

/-- The first buffered message has been taken out. -/
structure Pops (s : TonicNoiseSession β) (message : SecureMessage β) (s' : TonicNoiseSession β) :
    Prop where
  secure : s'.secure = s.secure
  role : s'.role = s.role
  buffered : s.bufferedMessages = message :: s'.bufferedMessages

theorem Pops.of_keeps {s s' s'' : TonicNoiseSession β} {message : SecureMessage β}
    (h' : Pops s' message s'') (h : Keeps s s') : Pops s message s'' :=
  ⟨h'.secure.trans h.secure, h'.role.trans h.role, h.buffered ▸ h'.buffered⟩

/-- The party has encrypted a message that waits for room in the channel. -/
def Party.sealed (prost : Prost (SecureMessage β) B) (p : Party β B)
    (session : TonicNoiseSession β) (message : SecureMessage β) (after : After) : Party β B :=
  { p with
    session := { session with secure := session.secure.afterSending }
    pc := .sending (.ciphertext ⟨session.secure.transport.sending, prost.encode message⟩) after }

/-- The control messages a party sends of its own accord. -/
inductive Own (p : Party β B) (next : Next) : Control → After → Prop where
  | ping (nonce sentAt : Nat) : Own p next (.ping nonce sentAt) (.resume next)
  | request (hr : p.session.role = .initiator) :
      Own p next (.rekeyRequest (saturatingSucc p.session.secure.generation))
        (.rekeyWait (saturatingSucc p.session.secure.generation) next)

theorem Own.of_keeps {p : Party β B} {session : TonicNoiseSession β} {next : Next} {body : Control}
    {after : After} (h : Own { p with session } next body after) (hk : Keeps p.session session) :
    Own p next body after := by
  cases h with
  | ping nonce sentAt => exact .ping nonce sentAt
  | request hr =>
    rw [hk.secure]
    exact .request (hk.role ▸ hr)

/-- What running on to the next await point can do, in the loop of `receive` or elsewhere. -/
inductive Continues (prost : Prost (SecureMessage β) B) (p : Party β B) (loop : Bool) :
    Party β B → Prop where
  | rests {session} (hk : Keeps p.session session) (hl : loop = false)
      (hb : p.driven = true → p.session.bufferedMessages = []) :
      Continues prost p loop { p with session, pc := .idle }
  | waits {session} (hk : Keeps p.session session) (hl : loop = true)
      (hb : p.session.bufferedMessages = []) :
      Continues prost p loop { p with session, pc := .receiving }
  | stops {session} (hk : Keeps p.session session) (error : TransportError) :
      Continues prost p loop { p with session, pc := .stopped error }
  | returns {message session} (hl : loop = true)
      (hp : Pops p.session message session) :
      Continues prost p loop { p with session, returned := p.returned ++ [message], pc := .idle }
  | publishes {message session} (hl : loop = false)
      (hd : p.driven = true) (hp : Pops p.session message session) :
      Continues prost p loop { p with session, pc := .publishing message false }
  | seals {session next body after} (hk : Keeps p.session session) (hn : next ≠ .done)
      (hl : loop = true ↔ next = .receive) (ho : Own p next body after)
      (hf : Fits prost (control body : SecureMessage β)) :
      Continues prost p loop (p.sealed prost session (control body) after)

/-- Running on after small changes of the session. -/
theorem Continues.of_keeps {p p' : Party β B} {session : TonicNoiseSession β} {loop : Bool}
    (hk : Keeps p.session session) (h : Continues prost { p with session } loop p') :
    Continues prost p loop p' := by
  cases h with
  | rests hk' hl hb => exact .rests (hk.trans hk') hl (fun hd => hk.buffered ▸ hb hd)
  | waits hk' hl hb => exact .waits (hk.trans hk') hl (hk.buffered ▸ hb)
  | stops hk' error => exact .stops (hk.trans hk') error
  | returns hl hp => exact .returns hl (hp.of_keeps hk)
  | publishes hl hd hp => exact .publishes hl hd (hp.of_keeps hk)
  | seals hk' hn hl ho hf => exact .seals (hk.trans hk') hn hl (ho.of_keeps hk) hf

/-- A message is refused, or encrypted. -/
theorem send_rule {p : Party β B} {message : SecureMessage β} {after : After}
    {onError : TransportError → Party β B} {P : Party β B → Prop} (herror : ∀ e, P (onError e))
    (hok : Fits prost message → P (p.sealed prost p.session message after)) :
    P (p.send prost message after onError) := by
  unfold Party.send
  by_cases hf : Fits prost message
  · rw [encrypt_of_fits hf]
    exact hok hf
  · obtain ⟨e, he⟩ := encrypt_of_not_fits hf p.session.secure
    rw [he]
    exact herror (.noise e)

section Running

variable (p : Party β B) (now : Now) {next : Next} {loop : Bool}

theorem requestRekey_continues (hr : p.session.role = .initiator) (hn : next ≠ .done)
    (hl : loop = true ↔ next = .receive) :
    Continues prost p loop (p.requestRekey prost next p.stop) := by
  refine send_rule (fun e => ?_) fun hf => ?_
  · exact .stops (.refl _) e
  · exact .seals (.refl _) hn hl (.request hr) hf

theorem ping_continues (nonce : Nat) (hn : next ≠ .done) (hl : loop = true ↔ next = .receive) :
    Continues prost p loop (p.ping prost now nonce next p.stop) := by
  unfold Party.ping
  split
  · exact .stops (.refl _) _
  · have hk : Keeps p.session
        { p.session with pendingPings := nonce :: p.session.pendingPings } := ⟨rfl, rfl, rfl⟩
    refine send_rule (fun e => ?_) fun hf => ?_
    · exact .stops (.refl _) e
    · exact .seals hk hn hl (.ping nonce now.unixMicros) hf

theorem autoPing_continues (hn : next ≠ .done) (hl : loop = true ↔ next = .receive) :
    Continues prost p loop (p.autoPing prost now next) := by
  have hk : Keeps p.session p.session.allocatePingNonce.2 := ⟨rfl, rfl, rfl⟩
  exact .of_keeps hk (ping_continues _ now _ hn hl)

theorem finish_continues : Continues prost p false p.finish := by
  unfold Party.finish
  split
  · rename_i hd
    unfold Party.flush
    split
    · rename_i hb
      exact .rests (.refl _) rfl (fun _ => hb)
    · rename_i message rest hb
      exact .publishes rfl hd ⟨rfl, rfl, hb⟩
  · rename_i hd
    exact .rests (.refl _) rfl (fun h => absurd h hd)

theorem expire_continues (loop : Bool) : Continues prost p loop p.expire := by
  have hk : Keeps p.session { p.session with pendingPings := [] } := ⟨rfl, rfl, rfl⟩
  exact .stops hk _

theorem rekeyDue_initiator {s : TonicNoiseSession β} (h : s.rekeyDue now = true) :
    s.role = .initiator := by
  exact of_decide_eq_true (Bool.and_eq_true_iff.mp h).1

theorem receive_continues : Continues prost p true (p.receive prost now) := by
  unfold Party.receive
  split
  · rename_i message rest hb
    exact .returns rfl ⟨rfl, rfl, hb⟩
  · rename_i hb
    split
    · rename_i hdue
      exact requestRekey_continues p (rekeyDue_initiator now hdue) (by simp) (by simp)
    · split
      · exact expire_continues p true
      · exact .waits (.refl _) rfl hb

theorem resume_continues (hn : next ≠ .done) (hl : loop = true ↔ next = .receive) :
    Continues prost p loop (p.resume prost now next) := by
  unfold Party.resume
  split
  · exact absurd rfl hn
  · cases hl.mpr rfl
    exact receive_continues p now
  · cases loop with
    | false => exact finish_continues p
    | true => cases hl.mp rfl
  · cases loop with
    | false =>
      split
      · exact autoPing_continues p now (by simp) (by simp)
      · exact finish_continues p
    | true => cases hl.mp rfl

theorem performMaintenance_continues :
    Continues prost p false (p.performMaintenance prost now) := by
  unfold Party.performMaintenance
  split
  · exact expire_continues p false
  · split
    · rename_i hdue
      exact requestRekey_continues p (rekeyDue_initiator now hdue) (by simp) (by simp)
    · exact resume_continues p now (by simp) (by simp)

end Running

section

variable (p : Party β B)

/-- What going on at `next` can do. -/
inductive Resumes (prost : Prost (SecureMessage β) B) (p : Party β B) : Next → Party β B → Prop where
  | done : Resumes prost p .done { p with pc := .idle }
  | on {next loop p'} (hn : next ≠ .done)
      (hl : loop = true ↔ next = .receive) (h : Continues prost p loop p') :
      Resumes prost p next p'

theorem resume_resumes (now : Now) (next : Next) :
    Resumes prost p next (p.resume prost now next) := by
  by_cases hn : next = .done
  · cases hn
    exact .done
  · have hl : decide (next = .receive) = true ↔ next = .receive := decide_eq_true_iff
    exact .on hn hl (resume_continues p now hn hl)

/-! ## 3. What happens without a frame -/

/-- The control messages the user of a party has it send. -/
inductive Asked (p : Party β B) : Control → Prop where
  | ping (nonce sentAt : Nat) : Asked p (.ping nonce sentAt)
  | require (hr : p.session.role ≠ .initiator) :
      Asked p (.rekeyRequired (saturatingSucc p.session.secure.generation))

inductive Woken (prost : Prost (SecureMessage β) B) (p : Party β B) (w : Wake β) :
    Party β B → Prop where
  | same : Woken prost p w p
  | stops (error : TransportError) : Woken prost p w { p with pc := .stopped error }
  | abandons {generation next} (hi : p.pc = .rekeyWait generation next)
      (hd : p.driven = false) : Woken prost p w { p with pc := .idle, requestFailed := true }
  | tunes {session} (hi : p.pc = .idle) (hk : Keeps p.session session) :
      Woken prost p w { p with session }
  | drives (hw : w = .drive) (hi : p.pc = .idle) : Woken prost p w { p with driven := true }
  | starts {loop p'} (hi : p.pc = .idle) (hl : loop = true → p.driven = false)
      (h : Continues prost p loop p') : Woken prost p w p'
  | probes {p'} (hi : p.pc = .receiving) (h : Continues prost p true p') :
      Woken prost p w p'
  | sends (message : UserMessage β) (hi : p.pc = .idle) (hf : Fits prost message.val) :
      Woken prost p w
        ({ p with sent := p.sent ++ [message.val] }.sealed prost p.session message.val
          (.resume .done))
  | tells {session body} (hi : p.pc = .idle)
      (hk : Keeps p.session session) (ha : Asked p body)
      (hf : Fits prost (control body : SecureMessage β)) :
      Woken prost p w (p.sealed prost session (control body) (.resume .done))
  | hands {frame next p'} (hi : p.pc = .sending frame (.resume next))
      (h : Resumes prost { p with handed := p.handed ++ [frame] } next p') : Woken prost p w p'
  | handsRequest {frame generation next} (hi : p.pc = .sending frame (.rekeyWait generation next)) :
      Woken prost p w { p with handed := p.handed ++ [frame], pc := .rekeyWait generation next }
  | handsAck {frame generation next p' session}
      (hi : p.pc = .sending frame (.finishRekey generation next))
      (hr : Keyed p.session (p.session.secure.rekeyOutgoing.finishRekey generation) session)
      (h : Resumes prost { p with session, handed := p.handed ++ [frame] } next p') :
      Woken prost p w p'
  | taken {message last pc session} (hi : p.pc = .publishing message last)
      (h : Keeps p.session session ∧ (∃ error, pc = .stopped error) ∨
        Keeps p.session session ∧ p.session.bufferedMessages = [] ∧ pc = .idle ∨
        ∃ following, Pops p.session following session ∧ pc = .publishing following false) :
      Woken prost p w
        { p with session, published := p.published ++ [SessionEvent.tryFrom message], pc }

theorem refuse_woken (error : TransportError) : Woken prost p w (p.refuse error) := by
  unfold Party.refuse
  split
  · exact .stops error
  · exact .same

theorem abandon_woken {generation : Nat} {next : Next} (hi : p.pc = .rekeyWait generation next)
    (error : TransportError) : Woken prost p w (p.abandon error) := by
  unfold Party.abandon
  split
  · exact .stops error
  · rename_i hd
    exact .abandons hi (Bool.eq_false_iff.mpr hd)

theorem call_woken (now : Now) (operation : Operation β) (hi : p.pc = .idle) :
    Woken prost p w (p.call prost now operation) := by
  cases operation <;> dsimp only [Party.call]
  case send message =>
    refine send_rule (fun e => ?_) fun hf => ?_
    · exact refuse_woken p e
    · exact .sends message hi hf
  case ping nonce =>
    dsimp only [Party.call, Party.ping]
    split
    · exact refuse_woken p _
    · have hk : Keeps p.session
          { p.session with pendingPings := nonce :: p.session.pendingPings } := ⟨rfl, rfl, rfl⟩
      refine send_rule (fun e => ?_) fun hf => ?_
      · exact refuse_woken p e
      · exact .tells hi hk (.ping nonce now.unixMicros) hf
  case requireRekey =>
    split
    · exact refuse_woken p _
    · rename_i hr
      refine send_rule (fun e => ?_) fun hf => ?_
      · exact refuse_woken p e
      · exact .tells hi (.refl _) (.require hr) hf
  case requestRekey =>
    dsimp only [Party.call, Party.requestRekey]
    split
    · exact refuse_woken p _
    · rename_i hr
      refine send_rule (fun e => ?_) fun hf => ?_
      · exact refuse_woken p e
      · have hl : false = true ↔ Next.finish = .receive := by simp
        exact .starts hi (by simp)
          (.seals (.refl _) (by simp) hl (.request (not_not.mp hr)) hf)
  case receive =>
    split
    · exact .same
    · rename_i hd
      exact .starts hi (fun _ => Bool.eq_false_iff.mpr hd) (receive_continues p now)
  case performMaintenance =>
    split
    · exact .same
    · exact .starts hi (by simp) (performMaintenance_continues p now)
  case setHeartbeatPolicy policy =>
    split
    · exact .same
    · have hk : Keeps p.session { p.session with heartbeat := policy } := ⟨rfl, rfl, rfl⟩
      exact .tunes hi hk
  case setRekeyPolicy policy =>
    split
    · exact .same
    · have hk : Keeps p.session { p.session with rekey := policy } := ⟨rfl, rfl, rfl⟩
      exact .tunes hi hk
  case shutdown =>
    split
    · exact .stops _
    · exact .same

theorem sentFrame_woken (now : Now) {frame : ProtocolFrame B} {after : After}
    (hi : p.pc = .sending frame after) :
    Woken prost p w ({ p with handed := p.handed ++ [frame] }.sentFrame prost now after) := by
  cases after with
  | resume next => exact .hands hi (resume_resumes _ now next)
  | rekeyWait => exact .handsRequest hi
  | finishRekey generation next =>
    refine .handsAck hi ?_ (resume_resumes _ now next)
    exact ⟨rfl, rfl, rfl⟩

theorem eventTaken_woken {message : SecureMessage β} {last : Bool}
    (hi : p.pc = .publishing message last) : Woken prost p w (p.eventTaken message last) := by
  unfold Party.eventTaken
  dsimp only
  split
  · exact .taken hi (.inl ⟨.refl _, _, rfl⟩)
  · unfold Party.flush
    split
    · rename_i hb
      exact .taken hi (.inr (.inl ⟨.refl _, hb, rfl⟩))
    · rename_i following rest hb
      have hp : Pops p.session following { p.session with bufferedMessages := rest } :=
        ⟨rfl, rfl, hb⟩
      exact .taken hi (.inr (.inr ⟨following, hp, rfl⟩))

/-- **What happens to a party without a frame.** -/
theorem wake_cases (now : Now) (w : Wake β) : Woken prost p w (p.wake prost now w) := by
  unfold Party.wake
  split
  · rename_i operation hi
    exact call_woken p now operation hi
  · rename_i hi
    split
    · exact .starts hi (by simp) (performMaintenance_continues p now)
    · exact .same
  · rename_i hi
    exact .drives rfl hi
  · split
    · exact .stops _
    · exact .same
  · rename_i hi
    exact .probes hi (autoPing_continues p now (by simp) (by simp))
  · exact .stops _
  · rename_i frame after hi
    exact sentFrame_woken p now hi
  · exact .stops _
  · rename_i hi
    exact abandon_woken p hi _
  · rename_i hi
    exact abandon_woken p hi _
  · rename_i message last hi
    exact eventTaken_woken p hi
  · exact .stops _
  · exact .same

/-! ## 4. Reading a frame -/

/-- The control messages after which both ends switch keys. -/
def Control.switches : Control → Bool
  | .rekeyRequest _ => true
  | .rekeyAck _ => true
  | _ => false

def SecureMessage.switches : SecureMessage β → Bool
  | ⟨some (.sessionControl (some body))⟩ => body.switches
  | _ => false

/-- The session has read a frame, and nothing else. -/
abbrev HasRead (s s' : TonicNoiseSession β) : Prop := Keyed s s.secure.afterReading s'

/-- The party can decrypt the frame. -/
abbrev Opens (prost : Prost (SecureMessage β) B) (p : Party β B) (frame : ProtocolFrame B)
    (message : SecureMessage β) : Prop :=
  (p.session.secure.decrypt prost frame).1 = .ok message

/-- Where a party goes on after a frame outside of `request_rekey`. -/
inductive ReadsAt (p : Party β B) : Next → Prop where
  | receive (hi : p.pc = .receiving) : ReadsAt p .receive
  | driver (hi : p.pc = .idle) (hd : p.driven = true) : ReadsAt p .finish

inductive Accepted (prost : Prost (SecureMessage β) B) (p : Party β B) (frame : ProtocolFrame B) :
    Party β B → Prop where
  | refused {session e error} (h : (p.session.secure.decrypt prost frame).1 = .error e)
      (hr : session.role = p.session.role)
      (hb : session.bufferedMessages = p.session.bufferedMessages) :
      Accepted prost p frame { p with consumed := p.consumed + 1, session, pc := .stopped error }
  | stops {message session error} (h : Opens prost p frame message) (hc : message.isControl = true)
      (hr : session.role = p.session.role)
      (hb : session.bufferedMessages = p.session.bufferedMessages) :
      Accepted prost p frame { p with consumed := p.consumed + 1, session, pc := .stopped error }
  | abandons {body session generation next} (hi : p.pc = .rekeyWait generation next)
      (hd : p.driven = false) (h : Opens prost p frame ⟨some (.sessionControl body)⟩)
      (hr : HasRead p.session session) :
      Accepted prost p frame
        { p with consumed := p.consumed + 1, session, pc := .idle, requestFailed := true }
  | returned {message session} (hi : p.pc = .receiving) (h : Opens prost p frame message)
      (hc : message.isControl = false) (hr : HasRead p.session session) :
      Accepted prost p frame
        { p with
          consumed := p.consumed + 1, session, opened := p.opened ++ [message]
          returned := p.returned ++ [message], pc := .idle }
  | published {message session last} (hi : p.pc = .idle) (hd : p.driven = true)
      (h : Opens prost p frame message) (hc : message.isControl = false)
      (hr : HasRead p.session session) :
      Accepted prost p frame
        { p with
          consumed := p.consumed + 1, session, opened := p.opened ++ [message]
          pc := .publishing message last }
  | buffered {message session generation next} (hi : p.pc = .rekeyWait generation next)
      (h : Opens prost p frame message) (hc : message.isControl = false)
      (hr : HasRead p.session session) :
      Accepted prost p frame
        { p with
          consumed := p.consumed + 1, opened := p.opened ++ [message]
          session :=
            { session with bufferedMessages := p.session.bufferedMessages ++ [message] }
          pc := .rekeyWait generation next }
  | handled {body session next p'} (hi : ReadsAt p next) (h : Opens prost p frame (control body))
      (hs : body.switches = false) (hr : HasRead p.session session)
      (hp : Resumes prost { p with consumed := p.consumed + 1, session } next p') :
      Accepted prost p frame p'
  | ponged {nonce sentAt answer session next} (hi : ReadsAt p next)
      (h : Opens prost p frame (control (.ping nonce sentAt)))
      (hr : HasRead p.session session) (ha : answer.switches = false)
      (hf : Fits prost (control answer : SecureMessage β)) :
      Accepted prost p frame
        ({ p with consumed := p.consumed + 1 }.sealed prost session (control answer) (.resume next))
  | switched {generation session next} (hi : ReadsAt p next)
      (h : Opens prost p frame (control (.rekeyRequest generation)))
      (hrole : p.session.role = .responder)
      (hg : generation = saturatingSucc p.session.secure.generation)
      (hr : Keyed p.session p.session.secure.afterReading.rekeyIncoming session)
      (hf : Fits prost (control (.rekeyAck generation) : SecureMessage β)) :
      Accepted prost p frame
        ({ p with consumed := p.consumed + 1 }.sealed prost session (control (.rekeyAck generation))
          (.finishRekey generation next))
  | acknowledged {generation session next p'} (hi : p.pc = .rekeyWait generation next)
      (h : Opens prost p frame (control (.rekeyAck generation)))
      (hr : Keyed p.session
        (p.session.secure.afterReading.rekeyIncoming.rekeyOutgoing.finishRekey generation) session)
      (hp : Resumes prost { p with consumed := p.consumed + 1, session } next p') :
      Accepted prost p frame p'
  | ignored {body session generation next} (hi : p.pc = .rekeyWait generation next)
      (h : Opens prost p frame (control body))
      (hs : body.switches = false) (hr : HasRead p.session session) :
      Accepted prost p frame
        { p with consumed := p.consumed + 1, session, pc := .rekeyWait generation next }
  | crossed {nonce sentAt answer session generation next} (hi : p.pc = .rekeyWait generation next)
      (h : Opens prost p frame (control (.ping nonce sentAt)))
      (hr : HasRead p.session session) (ha : answer.switches = false)
      (hf : Fits prost (control answer : SecureMessage β)) :
      Accepted prost p frame
        ({ p with consumed := p.consumed + 1 }.sealed prost session (control answer)
          (.rekeyWait generation next))

end

section Reading

variable (p : Party β B) (now : Now) {frame : ProtocolFrame B} {session : TonicNoiseSession β}
  {secure : SecureSession} {generation : Nat} {next : Next}

/-- Handling a control message, by what the message is. -/
inductive HandledAs (s : TonicNoiseSession β) : Option Control → Handled β → Prop where
  | ping (nonce sentAt received sent : Nat) :
      HandledAs s (some (.ping nonce sentAt)) (.reply s (.pong nonce sentAt received sent) none)
  | pong (nonce echoed received sent : Nat) :
      HandledAs s (some (.pong nonce echoed received sent))
        (.done { s with pendingPings := s.pendingPings.erase nonce })
  | request (hr : s.role = .responder) :
      HandledAs s (some (.rekeyRequest (saturatingSucc s.secure.generation)))
        (.reply { s with secure := s.secure.rekeyIncoming }
          (.rekeyAck (saturatingSucc s.secure.generation)) (some (saturatingSucc s.secure.generation)))
  | required (generation : Nat) (hr : s.role = .initiator) :
      HandledAs s (some (.rekeyRequired generation)) (.failed .rekeyRequired)
  | failed (body : Option Control) (error : TransportError) (he : error ≠ .rekeyRequired) :
      HandledAs s body (.failed error)

theorem handleControl_cases (s : TonicNoiseSession β) (body : Option Control) :
    HandledAs s body (s.handleControl now body) := by
  unfold TonicNoiseSession.handleControl
  split
  · exact .ping _ _ _ _
  · exact .pong _ _ _ _
  · split
    · exact .failed _ _ (by simp)
    · rename_i hr
      split
      · exact .failed _ _ (by simp)
      · rename_i hg
        cases not_not.mp hg
        refine .request ?_
        cases hrole : s.role with
        | initiator => exact absurd hrole hr
        | responder => rfl
  · rename_i generation
    split
    · rename_i hr
      exact .required generation hr
    · exact .failed _ _ (by simp)
  · exact .failed _ _ (by simp)
  · exact .failed _ _ (by simp)

/-- Decrypting a frame: an error, a control message or one for the user. -/
theorem decrypt_cases (frame : ProtocolFrame B) :
    (∃ e secure, p.session.secure.decrypt prost frame = (.error e, secure)) ∨
      (∃ body, p.session.secure.decrypt prost frame =
        (.ok ⟨some (.sessionControl body)⟩, p.session.secure.afterReading)) ∨
      ∃ message, p.session.secure.decrypt prost frame = (.ok message, p.session.secure.afterReading) ∧
        message.isControl = false ∧ ∀ body, message.body ≠ some (.sessionControl body) := by
  cases hd : p.session.secure.decrypt prost frame with
  | mk answer secure =>
    cases answer with
    | error e => exact .inl ⟨e, secure, rfl⟩
    | ok message =>
      obtain ⟨c, -, -, -, rfl⟩ := decrypt_ok hd
      rcases message with ⟨_ | _ | _ | body⟩
      · exact .inr (.inr ⟨_, rfl, rfl, by simp⟩)
      · exact .inr (.inr ⟨_, rfl, rfl, by simp⟩)
      · exact .inr (.inr ⟨_, rfl, rfl, by simp⟩)
      · exact .inr (.inl ⟨body, rfl⟩)

/-- A control message outside of `request_rekey`. -/
theorem control_accepted {body : Option Control} (hi : ReadsAt p next)
    (hr : HasRead p.session session)
    (h : Opens prost p frame ⟨some (.sessionControl body)⟩) :
    Accepted prost p frame
      ({ p with consumed := p.consumed + 1, session }.control prost now next body) := by
  have hn : next ≠ .done := by cases hi <;> simp
  have hcases := handleControl_cases now session body
  unfold Party.control
  generalize session.handleControl now body = handled at hcases
  cases hcases with
  | ping =>
    refine send_rule (fun e => ?_) fun hf => ?_
    · exact .stops h rfl hr.role hr.buffered
    · exact .ponged hi h hr rfl hf
  | pong =>
    refine .handled hi h rfl ?_ (resume_resumes _ now next)
    exact { hr with }
  | request hrole =>
    have hg : session.secure.generation = p.session.secure.generation := by rw [hr.secure]; rfl
    refine send_rule (fun e => ?_) fun hf => ?_
    · exact .stops h rfl hr.role hr.buffered
    · refine .switched hi h (hr.role ▸ hrole) (by rw [hg]) ⟨?_, hr.role, hr.buffered⟩ hf
      rw [hr.secure]
  | required generation hrole =>
    rw [if_pos hrole]
    have hl : decide (next = .receive) = true ↔ next = .receive := decide_eq_true_iff
    exact .handled hi h rfl hr (.on hn hl (requestRekey_continues _ hrole hn hl))
  | failed body error he =>
    split
    · rename_i heq
      cases heq
    · rename_i heq
      cases heq
    · rename_i heq
      cases heq
    · rename_i heq
      cases heq
      exact absurd rfl he
    · exact .stops h rfl hr.role hr.buffered

/-- A control message while `request_rekey` waits. -/
theorem controlInRekey_accepted {body : Option Control} (hi : p.pc = .rekeyWait generation next)
    (hrole : p.session.role = .initiator) (hr : HasRead p.session session)
    (h : Opens prost p frame ⟨some (.sessionControl body)⟩) :
    Accepted prost p frame
      ({ p with consumed := p.consumed + 1, session }.controlInRekey prost now generation next
        body) := by
  have habandon (error : TransportError) :
      Accepted prost p frame ({ p with consumed := p.consumed + 1, session }.abandon error) := by
    unfold Party.abandon
    split
    · exact .stops h rfl hr.role hr.buffered
    · rename_i hd
      exact .abandons hi (Bool.eq_false_iff.mpr hd) h hr
  unfold Party.controlInRekey
  split
  · rename_i hack
    subst hack
    refine .acknowledged hi h ?_ (resume_resumes _ now next)
    exact ⟨by rw [hr.secure], hr.role, hr.buffered⟩
  · split
    · rename_i hrequired
      subst hrequired
      exact .ignored hi h rfl hr
    · have hcases := handleControl_cases now session body
      generalize session.handleControl now body = handled at hcases
      cases hcases with
      | ping =>
        refine send_rule habandon fun hf => ?_
        exact .crossed hi h hr rfl hf
      | pong =>
        refine .ignored hi h rfl ?_
        exact { hr with }
      | request hresponder =>
        rw [hr.role, hrole] at hresponder
        cases hresponder
      | required | failed => exact habandon _

theorem processInboundFrame_accepted (hi : ReadsAt p next) : Accepted prost p frame
      ({ p with consumed := p.consumed + 1 }.processInboundFrame prost now next frame) := by
  unfold Party.processInboundFrame
  rcases decrypt_cases p frame with ⟨e, secure, hd⟩ | ⟨body, hd⟩ | ⟨message, hd, hc, hbody⟩
  · rw [hd]
    exact .refused (congrArg Prod.fst hd) rfl rfl
  · rw [hd]
    exact control_accepted p now hi ⟨rfl, rfl, rfl⟩ (congrArg Prod.fst hd)
  · rw [hd]
    dsimp only
    split
    · rename_i body heq
      exact absurd heq (hbody body)
    · cases hi with
      | receive hi => exact .returned hi (congrArg Prod.fst hd) hc ⟨rfl, rfl, rfl⟩
      | driver hi hdriven => exact .published hi hdriven (congrArg Prod.fst hd) hc ⟨rfl, rfl, rfl⟩

theorem rekeyFrame_accepted (hi : p.pc = .rekeyWait generation next)
    (hrole : p.session.role = .initiator) : Accepted prost p frame
      ({ p with consumed := p.consumed + 1 }.rekeyFrame prost now generation next frame) := by
  unfold Party.rekeyFrame
  have hr : HasRead p.session { p.session with secure := p.session.secure.afterReading } :=
    ⟨rfl, rfl, rfl⟩
  rcases decrypt_cases p frame with ⟨e, secure, hd⟩ | ⟨body, hd⟩ | ⟨message, hd, hc, hbody⟩
  · rw [hd]
    exact .refused (congrArg Prod.fst hd) rfl rfl
  · rw [hd]
    exact controlInRekey_accepted p now hi hrole hr (congrArg Prod.fst hd)
  · rw [hd]
    dsimp only
    split
    · rename_i body heq
      exact absurd heq (hbody body)
    · exact .buffered hi (congrArg Prod.fst hd) hc hr

/-- **What reading a frame can do.** -/
theorem accept_cases (hreads : p.reads = true)
    (hrole : ∀ generation next, p.pc = .rekeyWait generation next → p.session.role = .initiator) :
    Accepted prost p frame (p.accept prost now frame) := by
  unfold Party.reads at hreads
  unfold Party.accept
  split
  · rename_i hi
    rw [hi] at hreads
    rw [if_pos hreads]
    exact processInboundFrame_accepted p now (.driver hi hreads)
  · rename_i hi
    exact processInboundFrame_accepted p now (.receive hi)
  · rename_i generation next hi
    exact rekeyFrame_accepted p now hi (hrole generation next hi)
  · rename_i hidle hreceiving hwait
    split at hreads
    · exact absurd ‹_› hidle
    · exact absurd ‹_› hreceiving
    · exact absurd ‹_› (hwait _ _)
    · cases hreads

end Reading

end Effects

end Smalux.Protocol
