/-
  Subject:   The user gets the peer's messages, in order and once.

  Messages that arrive while `request_rekey` waits are put into a buffer; `receive` and the driver
  empty it before they read on.

  * `SentLog` -- what a party has sent is what its frames hold;
  * `Arranged` -- where the buffer has to be empty, place by place;
  * `Ordered` -- what has been decrypted is what has been given out, then what is still held;
  * `DriveGuard` -- a session is given to a driver with an empty buffer;
  * **`delivered_in_order_while_guarded`** -- in every run that meets it the messages arrive in
    order and once.
-/
import Smalux.Protocol.KeyAgreement

namespace Smalux.Protocol

open Lib List SessionEvent Link

section Delivery

variable {β B : Type} (prost : Prost (SecureMessage β) B) {loop : Bool} {next : Next}
  {frame : ProtocolFrame B} {inbox : List (ProtocolFrame B)} {p p' : Party β B} {pc : Pc β B}
  {w : Wake β} {events : List (SecureMessage β)} {message : SecureMessage β} {link : Link β B}

/-! ## 1. What a party has sent -/

/-- The message for the user that a frame holds. -/
def userMessage (frame : ProtocolFrame B) : Option (SecureMessage β) :=
  match frame with
  | .ciphertext c => (prost.decode c.body).filter fun message => !message.isControl
  | _ => none

def userMessages (frames : List (ProtocolFrame B)) : List (SecureMessage β) :=
  frames.filterMap (userMessage prost)

/-- The user's messages are in the frames; a party that stops may have one more. -/
structure SentLog (p : Party β B) : Prop where
  sent : userMessages prost (p.handed ++ p.pc.inHand) <+: p.sent
  live : p.pc.live = true → p.sent = userMessages prost (p.handed ++ p.pc.inHand)

variable {prost}

theorem userMessages_append (frames frames' : List (ProtocolFrame B)) :
    userMessages prost (frames ++ frames') =
      userMessages prost frames ++ userMessages prost frames' := filterMap_append

@[simp] theorem userMessage_control (cipher : Cipher) (body : Control) :
    userMessage prost (.ciphertext ⟨cipher, prost.encode (control body)⟩) = none := by
  unfold userMessage
  dsimp only
  rw [prost.decode_encode]
  rfl

@[simp] theorem userMessage_user (cipher : Cipher) (message : UserMessage β) :
    userMessage prost (.ciphertext ⟨cipher, prost.encode message.val⟩) = some message.val := by
  unfold userMessage
  dsimp only
  rw [prost.decode_encode]
  simp [Option.filter, message.property]

/-- A party with nothing in hand whose log is complete. -/
theorem SentLog.of_eq (h : p.sent = userMessages prost (p.handed ++ p.pc.inHand)) :
    SentLog prost p := ⟨h ▸ prefix_refl _, fun _ => h⟩

theorem sealed_sentLog (h : p.sent = userMessages prost p.handed) (session : TonicNoiseSession β)
    (body : Control) (after : After) :
    SentLog prost (p.sealed prost session (control body) after) := by
  refine .of_eq ?_
  show p.sent = userMessages prost (p.handed ++ [_])
  rw [userMessages_append, h]
  simp [userMessages]

theorem Continues.sentLog (h : Continues prost p loop p')
    (hs : p.sent = userMessages prost p.handed) : SentLog prost p' := by
  have hrest : p.sent = userMessages prost (p.handed ++ []) := by rw [append_nil, hs]
  cases h with
  | seals => exact sealed_sentLog hs _ _ _
  | _ => exact .of_eq hrest

theorem Resumes.sentLog (h : Resumes prost p next p') (hs : p.sent = userMessages prost p.handed) :
    SentLog prost p' := by
  cases h with
  | done => exact .of_eq (by rw [show (Pc.idle : Pc β B).inHand = [] from rfl, append_nil, hs])
  | on hn hl h => exact h.sentLog hs

/-- Nothing in hand. -/
theorem SentLog.free (h : SentLog prost p) (hpc : p.pc = pc) (hi : pc.inHand = [])
    (hlive : pc.live = true) : p.sent = userMessages prost p.handed := by
  subst hpc
  have := h.live hlive
  rwa [hi, append_nil] at this

theorem Woken.sentLog (h : Woken prost p w p') (hs : SentLog prost p) : SentLog prost p' := by
  cases h with
  | same => exact hs
  | stops =>
    refine ⟨?_, nofun⟩
    show userMessages prost (p.handed ++ []) <+: p.sent
    rw [append_nil]
    refine List.IsPrefix.trans ?_ hs.sent
    rw [userMessages_append]
    exact prefix_append _ _
  | abandons hi => exact .of_eq (by rw [hs.free hi rfl rfl]; exact congrArg _ (append_nil _).symm)
  | tunes | drives => exact ⟨hs.sent, hs.live⟩
  | starts hi hl h | probes hi h => exact h.sentLog (hs.free hi rfl rfl)
  | sends message hi =>
    have hfree := hs.free hi rfl rfl
    refine .of_eq ?_
    show p.sent ++ [message.val] = userMessages prost (p.handed ++ [_])
    rw [userMessages_append, hfree]
    simp [userMessages]
  | tells hi => exact sealed_sentLog (hs.free hi rfl rfl) _ _ _
  | hands hi h | handsAck hi hr h =>
    refine h.sentLog ?_
    have := hs.live (by rw [hi]; rfl)
    rwa [hi] at this
  | handsRequest hi =>
    have := hs.live (by rw [hi]; rfl)
    rw [hi] at this
    refine .of_eq ?_
    show p.sent = userMessages prost (p.handed ++ [_] ++ [])
    rw [append_nil]
    exact this
  | taken hi h =>
    have hfree := hs.free hi rfl rfl
    refine .of_eq ?_
    rcases h with ⟨-, e, rfl⟩ | ⟨-, -, rfl⟩ | ⟨following, -, rfl⟩
    all_goals
      show p.sent = userMessages prost (p.handed ++ [])
      rw [append_nil, hfree]

theorem ReadsAt.inHand (h : ReadsAt p next) : p.pc.inHand = [] := by
  cases h with
  | receive hi | driver hi =>
    rw [hi]
    rfl

theorem Accepted.sentLog (h : Accepted prost p frame p') (hs : SentLog prost p) :
    SentLog prost p' := by
  have hstop : userMessages prost (p.handed ++ []) <+: p.sent := by
    rw [append_nil]
    refine List.IsPrefix.trans ?_ hs.sent
    rw [userMessages_append]
    exact prefix_append _ _
  have hidle : ∀ {pc}, p.pc = pc → pc.inHand = [] → pc.live = true →
      p.sent = userMessages prost (p.handed ++ []) := by
    intro pc hpc hi hlive
    rw [append_nil]
    exact hs.free hpc hi hlive
  cases h with
  | refused | stops => exact ⟨hstop, nofun⟩
  | abandons hi | returned hi | published hi | buffered hi | ignored hi =>
    exact .of_eq (hidle hi rfl rfl)
  | handled hi h hsw hr hres => exact hres.sentLog (hs.free rfl hi.inHand hi.live)
  | ponged hi | switched hi =>
    exact sealed_sentLog (p := { p with consumed := p.consumed + 1 })
      (hs.free rfl hi.inHand hi.live) _ _ _
  | acknowledged hi h hr hres => exact hres.sentLog (hs.free hi rfl rfl)
  | crossed hi =>
    exact sealed_sentLog (p := { p with consumed := p.consumed + 1 }) (hs.free hi rfl rfl) _ _ _

/-! ## 2. What a party has given out -/

/-- Where the code goes on when the driver owns the session: never in `receive`, and straight to
    its `select` only with an empty buffer. -/
def GoesOn (p : Party β B) (next : Next) : Prop :=
  p.driven = true → next ≠ .receive ∧ (next = .done → p.session.bufferedMessages = [])

/-- Place by place: who owns the session, and where the buffer is empty. -/
def Arranged (p : Party β B) : Prop :=
  match p.pc with
  | .idle => p.driven = true → p.session.bufferedMessages = []
  | .receiving => p.driven = false ∧ p.session.bufferedMessages = []
  | .sending _ (.resume next) => GoesOn p next
  | .sending _ (.finishRekey _ next) => GoesOn p next
  | .sending _ (.rekeyWait _ next) => next ≠ .done ∧ (p.driven = true → next ≠ .receive)
  | .rekeyWait _ next => next ≠ .done ∧ (p.driven = true → next ≠ .receive)
  | .publishing _ _ => p.driven = true
  | .stopped _ => True

/-- The message the driver is about to publish. -/
def Pc.heldBack : Pc β B → List (SecureMessage β)
  | .publishing message _ => [message]
  | _ => []

/-- What has been published is `events`, and with what `receive` has returned it is the beginning
    of what has been decrypted; the rest is still held. -/
structure GivenOut (p : Party β B) (events : List (SecureMessage β)) : Prop where
  published : p.published = events.map tryFrom
  manual : p.driven = false → events = []
  opened : p.opened = p.returned ++ events ++ (p.pc.heldBack ++ p.session.bufferedMessages)

/-- As `GivenOut`; a party that has stopped holds nothing any more. -/
structure Ordered (p : Party β B) : Prop where
  arranged : Arranged p
  given : p.pc.live = true → ∃ events, GivenOut p events
  stopped : ∃ events, p.published = events.map tryFrom ∧
    p.returned ++ events <+: p.opened

theorem Ordered.of_given (events : List (SecureMessage β)) (ha : Arranged p)
    (hp : p.published = events.map tryFrom) (hm : p.driven = false → events = [])
    (ho : p.opened = p.returned ++ events ++ (p.pc.heldBack ++ p.session.bufferedMessages)) :
    Ordered p := by
  refine ⟨ha, fun _ => ⟨events, hp, hm, ho⟩, events, hp, ?_⟩
  rw [ho]
  exact prefix_append _ _

/-- Stopping forgets what is held. -/
theorem Ordered.stops (h : Ordered p) (hpc : p'.pc.live = false) (hp : p'.published = p.published)
    (hr : p'.returned = p.returned) (ho : p'.opened = p.opened) : Ordered p' := by
  refine ⟨?_, fun hlive => absurd (hpc.symm.trans hlive) (by simp), ?_⟩
  · unfold Arranged
    cases hi : p'.pc with
    | stopped => trivial
    | _ => rw [hi] at hpc; cases hpc
  · rw [hp, hr, ho]
    exact h.stopped

theorem Continues.ordered (h : Continues prost p loop p') (hl : loop = true → p.driven = false)
    (hp : p.published = events.map tryFrom) (hm : p.driven = false → events = [])
    (ho : p.opened = p.returned ++ events ++ p.session.bufferedMessages) : Ordered p' := by
  cases h with
  | rests hk hloop hb =>
    refine .of_given events (fun hd => hk.buffered.trans (hb hd)) hp hm ?_
    rw [hk.buffered]
    exact ho
  | waits hk hloop hb =>
    refine .of_given events ⟨hl hloop, hk.buffered.trans hb⟩ hp hm ?_
    rw [hk.buffered]
    exact ho
  | stops =>
    refine ⟨trivial, fun hlive => ?_, events, hp, ?_⟩
    · cases hlive
    · rw [ho]
      exact prefix_append _ _
  | returns hloop hpop =>
    have hmanual := hl hloop
    cases hm hmanual
    refine .of_given [] (fun hd => ?_) hp (fun _ => rfl) ?_
    · exact absurd hmanual (by simp [show p.driven = true from hd])
    · rw [ho, hpop.buffered]
      simp [Pc.heldBack]
  | publishes hloop hd hpop =>
    refine .of_given events hd hp hm ?_
    rw [ho, hpop.buffered]
    rfl
  | @seals session next body after hk hn hloop hown =>
    have hdriver : p.driven = true → next ≠ .receive := by
      intro hd hnext
      have := hl (hloop.mpr hnext)
      simp [hd] at this
    refine .of_given events ?_ hp hm ?_
    · cases hown with
      | ping => exact fun hd => ⟨hdriver hd, fun hdone => absurd hdone hn⟩
      | request => exact ⟨hn, hdriver⟩
    · show p.opened = p.returned ++ events ++ _
      rw [ho, ← hk.buffered]
      rfl

/-- A change of the session that leaves the buffer alone. -/
theorem GoesOn.of_buffered (h : GoesOn p next) (hd : p'.driven = p.driven)
    (hb : p'.session.bufferedMessages = p.session.bufferedMessages) : GoesOn p' next := by
  unfold GoesOn
  rw [hd, hb]
  exact h

theorem Resumes.ordered (h : Resumes prost p next p') (hg : GoesOn p next)
    (hp : p.published = events.map tryFrom) (hm : p.driven = false → events = [])
    (ho : p.opened = p.returned ++ events ++ p.session.bufferedMessages) : Ordered p' := by
  cases h with
  | done => exact .of_given events (fun hd => (hg hd).2 rfl) hp hm ho
  | on hn hl h =>
    refine h.ordered (fun hloop => ?_) hp hm ho
    cases hd : p.driven with
    | false => rfl
    | true => exact absurd (hl.mp hloop) (hg hd).1

/-- With nothing held back. -/
theorem Ordered.free (h : Ordered p) (hpc : p.pc = pc) (hlive : pc.live = true)
    (hi : pc.heldBack = []) :
    ∃ events, p.published = events.map tryFrom ∧ (p.driven = false → events = []) ∧
      p.opened = p.returned ++ events ++ p.session.bufferedMessages ∧ Arranged { p with pc } := by
  subst hpc
  obtain ⟨events, hgiven⟩ := h.given hlive
  have ho := hgiven.opened
  rw [hi] at ho
  exact ⟨events, hgiven.published, hgiven.manual, ho, h.arranged⟩

/-- A session goes to a driver with an empty buffer. -/
def DrivenEmpty (p : Party β B) (w : Wake β) : Prop :=
  w = .drive → p.pc = .idle → p.driven = false → p.session.bufferedMessages = []

theorem Woken.ordered (h : Woken prost p w p') (hg : DrivenEmpty p w) (hs : Ordered p) : Ordered p' := by
  cases h with
  | same => exact hs
  | stops => exact hs.stops rfl rfl rfl rfl
  | abandons hi hd =>
    obtain ⟨events, hp, hm, ho, -⟩ := hs.free hi rfl rfl
    exact .of_given events (fun hd' => absurd hd' (by simp [hd])) hp hm ho
  | tunes hi hk =>
    obtain ⟨events, hp, hm, ho, harranged⟩ := hs.free hi rfl rfl
    refine .of_given events ?_ hp hm ?_
    · rw [hi]
      exact fun hd => hk.buffered.trans (harranged hd)
    · rw [hi, hk.buffered]
      exact ho
  | drives hw hi =>
    obtain ⟨events, hp, hm, ho, harranged⟩ := hs.free hi rfl rfl
    refine .of_given events ?_ hp (nofun) ?_
    · rw [hi]
      intro _
      cases hd : p.driven with
      | false => exact hg hw hi hd
      | true => exact harranged hd
    · rw [hi]
      exact ho
  | starts hi hl h =>
    obtain ⟨events, hp, hm, ho, -⟩ := hs.free hi rfl rfl
    exact h.ordered hl hp hm ho
  | probes hi h =>
    obtain ⟨events, hp, hm, ho, harranged⟩ := hs.free hi rfl rfl
    exact h.ordered (fun _ => harranged.1) hp hm ho
  | sends message hi =>
    obtain ⟨events, hp, hm, ho, harranged⟩ := hs.free hi rfl rfl
    refine .of_given events (fun hd => ⟨by simp, fun _ => harranged hd⟩) hp hm ?_
    exact ho
  | tells hi hk =>
    obtain ⟨events, hp, hm, ho, harranged⟩ := hs.free hi rfl rfl
    refine .of_given events (fun hd => ⟨by simp, fun _ => ?_⟩) hp hm ?_
    · exact hk.buffered.trans (harranged hd)
    · show p.opened = p.returned ++ events ++ _
      rw [ho, ← hk.buffered]
      rfl
  | hands hi h =>
    obtain ⟨events, hp, hm, ho, harranged⟩ := hs.free hi rfl rfl
    exact h.ordered harranged hp hm ho
  | handsRequest hi =>
    obtain ⟨events, hp, hm, ho, harranged⟩ := hs.free hi rfl rfl
    exact .of_given events harranged hp hm ho
  | handsAck hi hr h =>
    obtain ⟨events, hp, hm, ho, harranged⟩ := hs.free hi rfl rfl
    exact h.ordered (GoesOn.of_buffered harranged rfl hr.buffered) hp hm (hr.buffered.symm ▸ ho)
  | @taken message last pc session hi h =>
    obtain ⟨events, hp, hm, ho⟩ := hs.given (by rw [hi]; rfl)
    have harranged := hs.arranged
    rw [Arranged, hi] at harranged
    rw [hi] at ho
    have hpublished : p.published ++ [tryFrom message] =
        (events ++ [message]).map tryFrom := by
      rw [hp, map_append]
      rfl
    have hno : p.driven = false → events ++ [message] = [] := by
      intro hd
      simp [show p.driven = true from harranged] at hd
    have hopened : p.opened = p.returned ++ (events ++ [message]) ++ p.session.bufferedMessages := by
      rw [ho]
      simp [Pc.heldBack]
    rcases h with ⟨hk, e, rfl⟩ | ⟨hk, hb, rfl⟩ | ⟨following, hpop, rfl⟩
    · refine ⟨trivial, fun hlive => ?_, events ++ [message], hpublished, ?_⟩
      · cases hlive
      · rw [hopened]
        exact prefix_append _ _
    · refine .of_given (events ++ [message]) (fun _ => hk.buffered.trans hb) hpublished hno ?_
      rw [hopened, ← hk.buffered]
      rfl
    · refine .of_given (events ++ [message]) harranged hpublished hno ?_
      rw [hopened, hpop.buffered]
      rfl

theorem ReadsAt.goesOn (h : ReadsAt p next) (ha : Arranged p) : GoesOn p next := by
  unfold Arranged at ha
  cases h with
  | receive hi =>
    rw [hi] at ha
    exact fun hd => absurd ha.1 (by simp [hd])
  | driver => exact fun _ => ⟨by simp, nofun⟩

theorem ReadsAt.heldBack (h : ReadsAt p next) : p.pc.heldBack = [] := by
  cases h with
  | receive hi =>
    rw [hi]
    rfl
  | driver hi =>
    rw [hi]
    rfl

theorem Accepted.ordered (h : Accepted prost p frame p') (hs : Ordered p) : Ordered p' := by
  cases h with
  | refused | stops => exact hs.stops rfl rfl rfl rfl
  | abandons hi hd h hr =>
    obtain ⟨events, hp, hm, ho, -⟩ := hs.free hi rfl rfl
    exact .of_given events (fun hd' => absurd hd' (by simp [hd])) hp hm (hr.buffered ▸ ho)
  | @returned message session hi h hc hr =>
    obtain ⟨events, hp, hm, ho, harranged⟩ := hs.free hi rfl rfl
    cases hm harranged.1
    refine .of_given [] (fun hd => absurd harranged.1 (by simp [show p.driven = true from hd])) hp
      (fun _ => rfl) ?_
    rw [ho, hr.buffered, harranged.2]
    simp [Pc.heldBack]
  | @published message session last hi hd h hc hr =>
    obtain ⟨events, hp, hm, ho, harranged⟩ := hs.free hi rfl rfl
    refine .of_given events hd hp hm ?_
    rw [ho, hr.buffered, harranged hd]
    simp [Pc.heldBack]
  | @buffered message session generation next hi =>
    obtain ⟨events, hp, hm, ho, harranged⟩ := hs.free hi rfl rfl
    refine .of_given events harranged hp hm ?_
    rw [ho]
    simp [Pc.heldBack]
  | handled hi h hsw hr hres =>
    obtain ⟨events, hp, hm, ho, harranged⟩ := hs.free rfl hi.live hi.heldBack
    refine hres.ordered ((hi.goesOn harranged).of_buffered rfl hr.buffered) hp hm ?_
    rw [hr.buffered]
    exact ho
  | ponged hi h hr | switched hi h hrole hg hr =>
    obtain ⟨events, hp, hm, ho, harranged⟩ := hs.free rfl hi.live hi.heldBack
    refine .of_given events ((hi.goesOn harranged).of_buffered rfl hr.buffered) hp hm ?_
    rw [ho, ← hr.buffered]
    rfl
  | acknowledged hi h hr hres =>
    obtain ⟨events, hp, hm, ho, harranged⟩ := hs.free hi rfl rfl
    refine hres.ordered (fun hd => ⟨harranged.2 hd, fun hdone => absurd hdone harranged.1⟩) hp hm ?_
    rw [hr.buffered]
    exact ho
  | ignored hi h hsw hr | crossed hi h hr =>
    obtain ⟨events, hp, hm, ho, harranged⟩ := hs.free hi rfl rfl
    refine .of_given events harranged hp hm ?_
    rw [ho, ← hr.buffered]
    rfl

/-! ## 3. What a party has read -/

/-- What has been decrypted is what the frames read hold; the last of them may have failed. -/
structure OpenedLog (prost : Prost (SecureMessage β) B) (p : Party β B)
    (inbox : List (ProtocolFrame B)) : Prop where
  opened : p.opened <+: userMessages prost inbox
  live : p.pc.live = true → p.opened = userMessages prost inbox

theorem Continues.opened (h : Continues prost p loop p') : p'.opened = p.opened := by
  cases h <;> rfl

theorem Resumes.opened (h : Resumes prost p next p') : p'.opened = p.opened := by
  cases h with
  | done => rfl
  | on hn hl h => exact h.opened

theorem Woken.openedLog (h : Woken prost p w p') (hs : OpenedLog prost p inbox) :
    OpenedLog prost p' inbox := by
  have hkeep : p'.opened = p.opened → p.pc.live = true → OpenedLog prost p' inbox := by
    intro ho hlive
    exact ⟨ho ▸ hs.opened, fun _ => ho.trans (hs.live hlive)⟩
  cases h with
  | same => exact hs
  | stops => exact ⟨hs.opened, nofun⟩
  | abandons hi | tunes hi | drives hw hi | sends message hi | tells hi | handsRequest hi
  | taken hi =>
    exact hkeep rfl (by rw [hi]; rfl)
  | starts hi hl h | probes hi h | hands hi h | handsAck hi hr h =>
    exact hkeep h.opened (by rw [hi]; rfl)

theorem userMessage_of_decrypt {s : SecureSession} (h : (s.decrypt prost frame).1 = .ok message) :
    userMessage prost frame = if message.isControl then none else some message := by
  obtain ⟨c, rfl, -, hd⟩ := decoded_of_decrypt h
  unfold userMessage
  dsimp only
  rw [hd]
  cases hc : message.isControl <;> simp [Option.filter, hc]

/-- A frame has been read: a message for the user is logged, a control message is not. -/
theorem OpenedLog.reads (hs : OpenedLog prost p inbox) (hlive : p.pc.live = true)
    (h : Opens prost p frame message)
    (ho : p'.opened = p.opened ++ if message.isControl then [] else [message]) :
    OpenedLog prost p' (inbox ++ [frame]) := by
  have heq : p'.opened = userMessages prost (inbox ++ [frame]) := by
    rw [ho, hs.live hlive, userMessages_append]
    congr 1
    unfold userMessages
    cases hc : message.isControl with
    | true | false => simp [userMessage_of_decrypt h, hc]
  exact ⟨heq ▸ prefix_refl _, fun _ => heq⟩

theorem Accepted.openedLog (h : Accepted prost p frame p') (hs : OpenedLog prost p inbox) :
    OpenedLog prost p' (inbox ++ [frame]) := by
  have hstop : p.opened <+: userMessages prost (inbox ++ [frame]) := by
    rw [userMessages_append]
    exact hs.opened.trans (prefix_append _ _)
  cases h with
  | refused | stops => exact ⟨hstop, nofun⟩
  | returned hi h hc | published hi hd h hc | buffered hi h hc =>
    exact hs.reads (by rw [hi]; rfl) h (by rw [hc]; rfl)
  | handled hi h hsw hr hres =>
    refine hs.reads hi.live h (hres.opened.trans ?_)
    exact (append_nil _).symm
  | abandons hi hd h => exact hs.reads (by rw [hi]; rfl) h (append_nil _).symm
  | ponged hi h | switched hi h => exact hs.reads hi.live h (append_nil _).symm
  | acknowledged hi h hr hres =>
    refine hs.reads (by rw [hi]; rfl) h (hres.opened.trans ?_)
    exact (append_nil _).symm
  | ignored hi h | crossed hi h => exact hs.reads (by rw [hi]; rfl) h (append_nil _).symm

/-! ## 4. The link -/

/-- A session is given to a driver with an empty buffer. -/
def DriveGuard (link : Link β B) : LinkAct β → Prop
  | .wake role _ w => DrivenEmpty (link.party role) w
  | .deliver _ _ => True

instance [DecidableEq β] [DecidableEq B] (link : Link β B) : ∀ act, Decidable (DriveGuard link act)
  | .wake _ _ _ => inferInstanceAs (Decidable (_ → _ → _ → _))
  | .deliver _ _ => .isTrue trivial

/-- What has been sent and not yet given out: about to be published, buffered, on its way. -/
def Link.pending (prost : Prost (SecureMessage β) B) (link : Link β B) (role : NoiseSessionRole) :
    List (SecureMessage β) :=
  (link.party role).pc.heldBack ++ (link.party role).session.bufferedMessages ++
    userMessages prost (link.unread role ++ (link.party role.peer).pc.inHand)

/-- What a party has given to its user (returned by `receive`, then published by its driver) is
    the beginning of what the peer has sent; between parties that have not stopped the rest is
    pending, in order. -/
def InOrder (prost : Prost (SecureMessage β) B) (link : Link β B) : Prop :=
  ∀ role, ∃ events,
    (link.party role).published = events.map tryFrom ∧
    (link.party role).returned ++ events <+: (link.party role.peer).sent ∧
    ((link.party role).pc.live = true → (link.party role.peer).pc.live = true →
      (link.party role.peer).sent =
        (link.party role).returned ++ events ++ link.pending prost role)

/-- What is true of each party: its logs, and the order of what it gives out. -/
structure LogsKept (prost : Prost (SecureMessage β) B) (p : Party β B)
    (inbox : List (ProtocolFrame B)) : Prop where
  sent : SentLog prost p
  ordered : Ordered p
  opened : OpenedLog prost p inbox

theorem logsKept_step (link : Link β B) (act : LinkAct β) (h : Holds (LogsKept prost) link)
    (hg : DriveGuard link act) : Holds (LogsKept prost) (link.step prost act) := by
  refine h.step act (fun role now w hact p' hw => ?_)
    (fun role now frame rest hact hu p' ha => ?_)
  · subst hact
    have hkept := h.holds role
    exact ⟨hw.sentLog hkept.sent, hw.ordered hg hkept.ordered, hw.openedLog hkept.opened⟩
  · have hkept := h.holds role
    exact ⟨ha.sentLog hkept.sent, ha.ordered hkept.ordered, ha.openedLog hkept.opened⟩

/-- What has been decrypted is the beginning of what the peer has sent. -/
theorem opened_prefix_sent (h : Holds (LogsKept prost) link) (role : NoiseSessionRole) :
    (link.party role).opened <+: (link.party role.peer).sent := by
  refine (h.holds role).opened.opened.trans (List.IsPrefix.trans ?_ (h.holds role.peer).sent.sent)
  have hsplit : (link.party role.peer).handed = link.inbox role ++ link.unread role :=
    (take_append_drop _ _).symm
  rw [hsplit, append_assoc, userMessages_append]
  exact prefix_append _ _

/-- Between two parties that have not stopped, all that was sent is decrypted or on its way. -/
theorem sent_eq_opened (h : Holds (LogsKept prost) link) (role : NoiseSessionRole)
    (hp : (link.party role).pc.live = true) (hq : (link.party role.peer).pc.live = true) :
    (link.party role.peer).sent = (link.party role).opened ++
      userMessages prost (link.unread role ++ (link.party role.peer).pc.inHand) := by
  have hsplit : (link.party role.peer).handed = link.inbox role ++ link.unread role :=
    (take_append_drop _ _).symm
  rw [(h.holds role.peer).sent.live hq, hsplit, append_assoc, userMessages_append,
    (h.holds role).opened.live hp]

theorem inOrder_of_kept (link : Link β B) (h : Holds (LogsKept prost) link) :
    InOrder prost link := by
  intro role
  by_cases hp : (link.party role).pc.live = true
  · obtain ⟨events, hgiven⟩ := (h.holds role).ordered.given hp
    refine ⟨events, hgiven.published, ?_, fun _ hq => ?_⟩
    · refine List.IsPrefix.trans ?_ (opened_prefix_sent h role)
      rw [hgiven.opened]
      exact prefix_append _ _
    · rw [sent_eq_opened h role hp hq, hgiven.opened, append_assoc]
      rfl
  · obtain ⟨events, hpublished, hprefix⟩ := (h.holds role).ordered.stopped
    exact ⟨events, hpublished, hprefix.trans (opened_prefix_sent h role),
      fun hlive => absurd hlive hp⟩

theorem logsKept_fresh (now : Now) : Holds (LogsKept prost) (fresh now) := by
  refine ⟨fun role => ?_, fun role => ?_, fun role => ?_⟩
  · cases role <;> exact ⟨rfl, nofun⟩
  · cases role <;> exact Nat.zero_le _
  · cases role <;>
      exact ⟨.of_eq rfl, .of_given [] (fun _ => rfl) rfl (fun _ => rfl) rfl,
        prefix_refl _, fun _ => rfl⟩

/-- **In order and once**: in every run of a fresh link in which a session is given to a driver
    with an empty buffer, the messages `receive` has returned and the driver has published are, in
    every state, the beginning of what the peer has sent; and as long as neither end has stopped,
    the rest is what is about to be published, buffered or on its way, in this order. -/
theorem delivered_in_order_while_guarded (prost : Prost (SecureMessage β) B) (now : Now)
    (acts : List (LinkAct β)) (h : Along (step prost) DriveGuard (fresh now) acts) :
    Throughout (step prost) (InOrder prost) (fresh now) acts :=
  throughout_of_invariant (fun link act hi hg => logsKept_step link act hi hg)
    (inOrder_of_kept) (logsKept_fresh now) h

end Delivery

section Overtaking

/-- The responder requires a rekey and sends two reports, which reach the initiator while it waits
    for the acknowledgement. Its `receive` then returns the first of them. -/
def bufferedInRekey : List (LinkAct Nat) :=
  [.wake .responder noon .drive, .wake .responder noon (.call .requireRekey),
   .wake .responder noon .room,
   .wake .responder noon (.call (.send ⟨reportOf 1, rfl⟩)), .wake .responder noon .room,
   .wake .responder noon (.call (.send ⟨reportOf 2, rfl⟩)), .wake .responder noon .room,
   .wake .initiator noon (.call .receive), .deliver .initiator noon, .wake .initiator noon .room,
   .deliver .initiator noon, .deliver .initiator noon,
   .deliver .responder noon, .wake .responder noon .room, .deliver .initiator noon]

/-- The initiator goes on in a driver, and a third report arrives. -/
def thenDriven : List (LinkAct Nat) :=
  [.wake .initiator noon .drive, .wake .responder noon (.call (.send ⟨reportOf 3, rfl⟩)),
   .wake .responder noon .room, .deliver .initiator noon, .wake .initiator noon .taken,
   .wake .initiator noon .taken]

theorem delivered_in_order_in_rekey :
    Along (step sized) DriveGuard (fresh noon) bufferedInRekey ∧
      Throughout (step sized) (InOrder sized) (fresh noon) bufferedInRekey := by
  have h : Along (step sized) DriveGuard (fresh noon) bufferedInRekey := by
    decide +kernel
  exact ⟨h, delivered_in_order_while_guarded sized noon bufferedInRekey h⟩

/-- **A driver overtakes the buffer**: the driver publishes the third report before the second,
    which was left in the buffer. -/
theorem driver_overtakes_buffer :
    (run (step sized) (fresh noon) (bufferedInRekey ++ thenDriven)).responder.sent =
        [reportOf 1, reportOf 2, reportOf 3] ∧
      (run (step sized) (fresh noon) (bufferedInRekey ++ thenDriven)).initiator.returned =
        [reportOf 1] ∧ (run (step sized) (fresh noon)
        (bufferedInRekey ++ thenDriven)).initiator.published.map Except.toOption =
          [some ⟨.taskReport, 3⟩, some ⟨.taskReport, 2⟩] := by
  decide +kernel

end Overtaking

end Smalux.Protocol
