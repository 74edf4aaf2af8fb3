/-
  Subject:   Dropping an operation of a Server session where it waits.

  The business loop of the Server drops `receive_event` whenever something else is ready first,
  and goes on with the session.

  * `CancelSafe` -- every nonce belongs to a frame the peer gets, no message for the user is lost,
    and keys and generation are those the acknowledgements handed over have told the peer;
  * `DropGuard` -- an operation is dropped only where it waits for a frame;
  * **`cancel_safe_iff`** -- a run of a Server session is safe in every state iff its drops meet it.
-/
import Smalux.Protocol.KeyAgreement

namespace Smalux.Protocol

open Lib List

/-! ## 1. What has to hold -/

section Cancel

variable {β B : Type} (prost : Prost (SecureMessage β) B) {frame : ProtocolFrame B}
  {p p' : Party β B} {session : TonicNoiseSession β} {next : Next} {generation : Nat}

/-- The generation a frame acknowledges. -/
def acknowledgedBy (frame : ProtocolFrame B) : Option Nat :=
  match frame with
  | .ciphertext c =>
    match prost.decode c.body with
    | some ⟨some (.sessionControl (some (.rekeyAck generation)))⟩ => some generation
    | _ => none
  | _ => none

/-- What the frames tell the peer: the generations they acknowledge. -/
def told (frames : List (ProtocolFrame B)) : List Nat := frames.filterMap (acknowledgedBy prost)

/-- Nothing is lost but what is in hand, and the keys are those the peer has been told. The
    incoming key is switched just before its acknowledgement is sealed. -/
structure CancelSafe (p : Party β B) (inHand : List (ProtocolFrame B)) : Prop where
  nonces : p.session.secure.transport.sending.nonce = (p.handed ++ inHand).length
  messages : p.opened = p.returned ++ p.session.bufferedMessages
  outgoing : p.session.secure.transport.sending.key = (told prost p.handed).length
  incoming : p.session.secure.transport.receiving.key = (told prost (p.handed ++ inHand)).length
  generation : p.session.secure.generation = (told prost p.handed).getLastD 0

/-- A session that is still in use, and not by a driver, is safe. -/
def Consistent (p : Party β B) : Prop :=
  p.driven = false → p.pc.live = true → CancelSafe prost p p.pc.inHand

/-! ## 2. What a step keeps -/

/-- What the frame in hand is, by what follows it. -/
def InHandIs (pc : Pc β B) : Prop :=
  match pc with
  | .sending frame (.resume _) => acknowledgedBy prost frame = none
  | .sending frame (.finishRekey generation _) => acknowledgedBy prost frame = some generation
  | .sending _ (.rekeyWait _ _) => False
  | .rekeyWait _ _ => False
  | .publishing _ _ => False
  | _ => True

/-- A Server session, and what is true of it while nobody drops what it has in hand. -/
structure Served (p : Party β B) : Prop where
  role : p.session.role = .responder
  empty : p.session.bufferedMessages = []
  hand : p.driven = false → InHandIs prost p.pc
  safe : Consistent prost p

variable {prost}

@[simp] theorem acknowledgedBy_sealed (cipher : Cipher) (message : SecureMessage β) :
    acknowledgedBy prost (.ciphertext ⟨cipher, prost.encode message⟩) =
      match message with
      | ⟨some (.sessionControl (some (.rekeyAck generation)))⟩ => some generation
      | _ => none := by
  unfold acknowledgedBy
  dsimp only
  rw [prost.decode_encode]
  split <;> simp_all

theorem told_append (frames frames' : List (ProtocolFrame B)) :
    told prost (frames ++ frames') = told prost frames ++ told prost frames' :=
  filterMap_append

theorem told_single (frame : ProtocolFrame B) :
    told prost [frame] = (acknowledgedBy prost frame).toList := by
  unfold told
  cases h : acknowledgedBy prost frame with
  | none | some => simp [h]

/-- A frame is sealed; if it acknowledges a request, the incoming key was switched before. -/
theorem CancelSafe.seals_keyed (h : CancelSafe prost p []) {secure : SecureSession}
    (hk : Keyed p.session secure session) {message : SecureMessage β} (after : After)
    (hs : secure.transport.sending = p.session.secure.transport.sending)
    (hg : secure.generation = p.session.secure.generation)
    (hr : secure.transport.receiving.key = p.session.secure.transport.receiving.key + (told prost
      [.ciphertext ⟨session.secure.transport.sending, prost.encode message⟩]).length) :
    CancelSafe prost (p.sealed prost session message after)
      (p.sealed prost session message after).pc.inHand := by
  refine ⟨?_, ?_, ?_, ?_, ?_⟩
  · show session.secure.transport.sending.nonce + 1 = (p.handed ++ [_]).length
    rw [hk.secure, hs, h.nonces]
    simp
  · show p.opened = p.returned ++ session.bufferedMessages
    rw [hk.buffered]
    exact h.messages
  · show session.secure.transport.sending.key = _
    rw [hk.secure, hs]
    exact h.outgoing
  · show session.secure.transport.receiving.key = (told prost (p.handed ++ [_])).length
    rw [told_append, length_append, ← append_nil p.handed, ← h.incoming, ← hr, hk.secure]
  · show session.secure.generation = _
    rw [hk.secure, hg]
    exact h.generation

/-- A frame that acknowledges nothing is sealed. -/
theorem CancelSafe.seals (h : CancelSafe prost p []) (hk : Keeps p.session session)
    {message : SecureMessage β} (after : After) (hm : acknowledgedBy prost
      (.ciphertext ⟨session.secure.transport.sending, prost.encode message⟩) = none) :
    CancelSafe prost (p.sealed prost session message after)
      (p.sealed prost session message after).pc.inHand := by
  refine h.seals_keyed hk after rfl rfl ?_
  rw [told_single, hm]
  rfl

/-- The same keys and frames, and no message lost; a frame may have been read that changes neither
    the sending cipher nor what is told. -/
theorem CancelSafe.of_same (h : CancelSafe prost p []) (hs : p'.session.secure = p.session.secure ∨
      p'.session.secure = p.session.secure.afterReading) (hh : p'.handed = p.handed)
    (hm : p'.opened = p'.returned ++ p'.session.bufferedMessages) : CancelSafe prost p' [] := by
  rcases hs with hs | hs
  all_goals
    exact ⟨by rw [hs, hh]; exact h.nonces, hm, by rw [hs, hh]; exact h.outgoing,
      by rw [hs, hh]; exact h.incoming, by rw [hs, hh]; exact h.generation⟩

theorem Continues.served {loop : Bool} (h : Continues prost p loop p')
    (hr : p.session.role = .responder) (he : p.session.bufferedMessages = [])
    (hs : p.driven = false → CancelSafe prost p []) : Served prost p' := by
  cases h with
  | rests hk | waits hk =>
    refine ⟨hk.role.trans hr, hk.buffered.trans he, fun _ => trivial, fun hd _ => ?_⟩
    exact (hs hd).of_same (.inl hk.secure) rfl (hk.buffered ▸ (hs hd).messages)
  | stops hk =>
    exact ⟨hk.role.trans hr, hk.buffered.trans he, fun _ => trivial,
      fun _ hlive => by cases hlive⟩
  | returns hl hp | publishes hl hd hp => exact absurd (he.symm.trans hp.buffered) (by simp)
  | seals hk hn hl ho =>
    cases ho with
    | ping =>
      refine ⟨hk.role.trans hr, hk.buffered.trans he, fun _ => ?_,
        fun hd _ => (hs hd).seals hk _ ?_⟩
      all_goals exact acknowledgedBy_sealed _ _
    | request hi =>
      rw [hr] at hi
      cases hi

theorem Resumes.served (h : Resumes prost p next p') (hr : p.session.role = .responder)
    (he : p.session.bufferedMessages = []) (hs : p.driven = false → CancelSafe prost p []) :
    Served prost p' := by
  cases h with
  | done =>
    exact ⟨hr, he, fun _ => trivial, fun hd _ => (hs hd).of_same (.inl rfl) rfl (hs hd).messages⟩
  | on hn hl h => exact h.served hr he hs

/-- What is in hand is handed over; it acknowledged nothing. -/
theorem CancelSafe.hands (h : CancelSafe prost p [frame]) (hf : acknowledgedBy prost frame = none) :
    CancelSafe prost { p with handed := p.handed ++ [frame] } [] := by
  have htold : told prost (p.handed ++ [frame]) = told prost p.handed := by
    rw [told_append, told_single, hf]
    simp
  refine ⟨?_, h.messages, ?_, ?_, ?_⟩
  · rw [append_nil]
    exact h.nonces
  · rw [htold]
    exact h.outgoing
  · rw [append_nil]
    exact h.incoming
  · rw [htold]
    exact h.generation

/-- An acknowledgement is handed over, and the outgoing key is switched. -/
theorem CancelSafe.handsAck (h : CancelSafe prost p [frame])
    (hf : acknowledgedBy prost frame = some generation)
    (hk : Keyed p.session (p.session.secure.rekeyOutgoing.finishRekey generation) session) :
    CancelSafe prost { p with session, handed := p.handed ++ [frame] } [] := by
  have htold : told prost (p.handed ++ [frame]) = told prost p.handed ++ [generation] := by
    rw [told_append, told_single, hf]
    rfl
  refine ⟨?_, ?_, ?_, ?_, ?_⟩
  · rw [hk.secure, append_nil]
    exact h.nonces
  · rw [hk.buffered]
    exact h.messages
  · rw [hk.secure, htold, length_append]
    exact congrArg (· + 1) h.outgoing
  · rw [hk.secure, append_nil]
    exact h.incoming
  · rw [hk.secure, htold]
    simp [SecureSession.finishRekey]

theorem Served.free (h : Served prost p) {pc : Pc β B} (hpc : p.pc = pc) (hi : pc.inHand = [])
    (hlive : pc.live = true) : p.driven = false → CancelSafe prost p [] := by
  intro hd
  subst hpc
  have := h.safe hd hlive
  rwa [hi] at this

theorem Asked.acknowledges_nothing {body : Control} (h : Asked p body) (cipher : Cipher) :
    acknowledgedBy prost (.ciphertext ⟨cipher, prost.encode (control body)⟩) = none := by
  cases h <;> exact acknowledgedBy_sealed _ _

theorem user_acknowledges_nothing (message : UserMessage β) (cipher : Cipher) :
    acknowledgedBy prost (.ciphertext ⟨cipher, prost.encode message.val⟩) = none := by
  rw [acknowledgedBy_sealed]
  split
  · rename_i h
    have := message.property
    rw [h] at this
    cases this
  · rfl

theorem Woken.served {w : Wake β} (h : Woken prost p w p') (hs : Served prost p) :
    Served prost p' := by
  have hdriven : ∀ {pc}, p.pc = pc → ¬ InHandIs prost pc → ¬ p.driven = false :=
    fun hpc hnot hd => hnot (hpc ▸ hs.hand hd)
  cases h with
  | same => exact hs
  | stops => exact ⟨hs.role, hs.empty, fun _ => trivial, fun _ hlive => by cases hlive⟩
  | abandons hi hd => exact absurd hd (hdriven hi id)
  | tunes hi hk =>
    have hfree := hs.free hi rfl rfl
    refine ⟨hk.role.trans hs.role, hk.buffered.trans hs.empty, hs.hand, fun hd _ => ?_⟩
    rw [hi]
    exact (hfree hd).of_same (.inl hk.secure) rfl (hk.buffered ▸ (hfree hd).messages)
  | drives => exact ⟨hs.role, hs.empty, nofun, fun hd _ => (by cases hd)⟩
  | starts hi hl h | probes hi h =>
    exact h.served hs.role hs.empty (hs.free hi rfl rfl)
  | sends message hi =>
    have hfree := hs.free hi rfl rfl
    refine ⟨hs.role, hs.empty, fun _ => user_acknowledges_nothing message _, fun hd _ => ?_⟩
    have hsent : CancelSafe prost { p with sent := p.sent ++ [message.val] } [] :=
      (hfree hd).of_same (.inl rfl) rfl (hfree hd).messages
    exact hsent.seals (.refl _) _ (user_acknowledges_nothing message _)
  | tells hi hk ha =>
    have hfree := hs.free hi rfl rfl
    exact ⟨hk.role.trans hs.role, hk.buffered.trans hs.empty,
      fun _ => ha.acknowledges_nothing _,
      fun hd _ => (hfree hd).seals hk _ (ha.acknowledges_nothing _)⟩
  | hands hi h =>
    refine h.served hs.role hs.empty (fun hd => ?_)
    have hsafe := hs.safe hd (by rw [hi]; rfl)
    have hhand := hs.hand hd
    rw [hi] at hsafe hhand
    exact hsafe.hands hhand
  | handsRequest hi =>
    have hno := hdriven hi id
    exact ⟨hs.role, hs.empty, fun hd => absurd hd hno, fun hd _ => absurd hd hno⟩
  | handsAck hi hr h =>
    refine h.served (hr.role.trans hs.role) (hr.buffered.trans hs.empty) (fun hd => ?_)
    have hsafe := hs.safe hd (by rw [hi]; rfl)
    have hhand := hs.hand hd
    rw [hi] at hsafe hhand
    exact hsafe.handsAck hhand hr
  | taken hi h =>
    have hno := hdriven hi id
    rcases h with ⟨hk, -⟩ | ⟨hk, -⟩ | ⟨following, hp, -⟩
    iterate 2
      exact ⟨hk.role.trans hs.role, hk.buffered.trans hs.empty, fun hd => absurd hd hno,
        fun hd _ => absurd hd hno⟩
    · exact absurd (hs.empty.symm.trans hp.buffered) (by simp)

theorem ReadsAt.free (h : ReadsAt p next) (hs : Served prost p) :
    p.driven = false → CancelSafe prost p [] := by
  cases h with
  | receive hi => exact hs.free hi rfl rfl
  | driver hi hd => exact fun hd' => by simp [hd] at hd'

theorem ponged_served {answer : Control} (hr : p.session.role = .responder)
    (he : p.session.bufferedMessages = []) (hs : p.driven = false → CancelSafe prost p [])
    (hread : HasRead p.session session) (ha : answer.switches = false) (next : Next) :
    Served prost ({ p with consumed := p.consumed + 1 }.sealed prost session (control answer)
      (.resume next)) := by
  have hack : ∀ cipher : Cipher,
      acknowledgedBy prost (.ciphertext ⟨cipher, prost.encode (control answer)⟩) = none := by
    intro cipher
    rw [acknowledgedBy_sealed]
    cases answer with
    | rekeyAck => cases ha
    | _ => rfl
  refine ⟨hread.role.trans hr, hread.buffered.trans he, fun _ => hack _, fun hd _ => ?_⟩
  have hsafe : CancelSafe prost { p with consumed := p.consumed + 1, session } [] :=
    (hs hd).of_same (.inr hread.secure) rfl (hread.buffered ▸ (hs hd).messages)
  exact hsafe.seals (.refl _) _ (hack _)

theorem Accepted.served (h : Accepted prost p frame p') (hp : Placed .responder p)
    (hs : Served prost p) : Served prost p' := by
  have hwait : ∀ generation next, ¬ p.pc = .rekeyWait generation next := by
    intro generation next hi
    have := hp.request (by rw [hi]; rfl)
    rw [hp.role] at this
    cases this
  cases h with
  | refused h hr hb | stops h hc hr hb =>
    exact ⟨hr.trans hs.role, hb.trans hs.empty, fun _ => trivial, fun _ hlive => by cases hlive⟩
  | returned hi h hc hr =>
    have hfree := (ReadsAt.receive hi).free hs
    refine ⟨hr.role.trans hs.role, hr.buffered.trans hs.empty, fun _ => trivial, fun hd _ => ?_⟩
    refine (hfree hd).of_same (.inr hr.secure) rfl ?_
    rw [(hfree hd).messages, hr.buffered, hs.empty]
    simp
  | published hi hd h hc hr =>
    have hno : ¬ p.driven = false := by simp [hd]
    exact ⟨hr.role.trans hs.role, hr.buffered.trans hs.empty, fun hd' => absurd hd' hno,
      fun hd' _ => absurd hd' hno⟩
  | abandons hi | buffered hi | acknowledged hi | ignored hi | crossed hi =>
    exact absurd hi (hwait _ _)
  | handled hi h hsw hr hres =>
    have hfree := hi.free hs
    refine hres.served (hr.role.trans hs.role) (hr.buffered.trans hs.empty) (fun hd => ?_)
    exact (hfree hd).of_same (.inr hr.secure) rfl (hr.buffered ▸ (hfree hd).messages)
  | ponged hi h hr ha => exact ponged_served hs.role hs.empty (hi.free hs) hr ha _
  | switched hi h hrole hg hr =>
    refine ⟨hr.role.trans hs.role, hr.buffered.trans hs.empty,
      fun _ => acknowledgedBy_sealed _ _, fun hd _ => ?_⟩
    have hsafe : CancelSafe prost { p with consumed := p.consumed + 1 } [] :=
      (hi.free hs hd).of_same (.inl rfl) rfl (hi.free hs hd).messages
    refine hsafe.seals_keyed hr _ rfl rfl ?_
    rw [told_single, acknowledgedBy_sealed]
    rfl

/-! ## 3. Runs of a Server session -/

/-- What happens to a Server session. -/
inductive Happening (β B : Type) where
  | wake (now : Now) (w : Wake β)
  | frame (now : Now) (frame : ProtocolFrame B)
  /-- the future of the running operation is dropped -/
  | drop

def Party.happen (prost : Prost (SecureMessage β) B) (p : Party β B) : Happening β B → Party β B
  | .wake now w => p.wake prost now w
  | .frame now frame => p.accept prost now frame
  | .drop => p.drop

/-- An operation is dropped only where it waits for a frame. -/
def DropGuard (p : Party β B) : Happening β B → Prop
  | .drop => p.driven = false → p.pc.inHand = []
  | _ => True

/-- A Server session while its drops meet the guard. -/
def ServerKept (prost : Prost (SecureMessage β) B) (p : Party β B) : Prop :=
  Placed .responder p ∧ Served prost p

theorem drop_kept (h : ServerKept prost p) (hg : p.driven = false → p.pc.inHand = []) :
    ServerKept prost p.drop := by
  have hrest : ∀ {pc}, p.driven = false → p.pc = pc → pc.inHand = [] → pc.live = true →
      ServerKept prost { p with pc := .idle } := by
    intro pc hd hpc hi hlive
    have hfree := h.2.free hpc hi hlive hd
    exact ⟨⟨h.1.role, nofun⟩, h.2.role, h.2.empty, fun _ => trivial,
      fun _ _ => hfree.of_same (.inl rfl) rfl hfree.messages⟩
  unfold Party.drop
  split
  · rename_i hi
    split
    · exact h
    · rename_i hd
      exact hrest (Bool.eq_false_iff.mpr hd) hi rfl rfl
  · rename_i frame after hi
    split
    · exact h
    · rename_i hd
      have := hg (Bool.eq_false_iff.mpr hd)
      rw [hi] at this
      cases this
  · rename_i generation next hi
    split
    · exact h
    · rename_i hd
      exact hrest (Bool.eq_false_iff.mpr hd) hi rfl rfl
  · exact h

/-- A drop of what is in hand uses up a nonce for nothing. -/
theorem drop_loses (h : ServerKept prost p) (hd : p.driven = false) (hc : Consistent prost p.drop) :
    p.pc.inHand = [] := by
  cases hi : p.pc with
  | sending =>
    have hdrop : p.drop = { p with pc := .idle } := by
      unfold Party.drop
      rw [hi]
      exact if_neg (by simp [hd])
    rw [hdrop] at hc
    have hafter := (hc hd rfl).nonces
    have hbefore := (h.2.safe hd (by rw [hi]; rfl)).nonces
    rw [hi] at hbefore
    simp only [Pc.inHand, length_append, length_cons, length_nil] at hafter hbefore
    omega
  | _ => rfl

theorem happen_kept {happening : Happening β B} (h : ServerKept prost p)
    (hg : DropGuard p happening) : ServerKept prost (p.happen prost happening) := by
  cases happening with
  | wake now w =>
    have hw : Woken prost p w _ := wake_cases p now w
    exact ⟨hw.placed h.1, hw.served h.2⟩
  | frame now frame =>
    by_cases hreads : p.reads = true
    · have hrole : ∀ generation next, p.pc = .rekeyWait generation next →
          p.session.role = .initiator := fun _ _ hi => h.1.request (by rw [hi]; rfl)
      have ha : Accepted prost p frame _ := accept_cases p now hreads hrole
      exact ⟨ha.placed h.1, ha.served h.1 h.2⟩
    · show ServerKept prost (p.accept prost now frame)
      rw [accept_of_not_reads now hreads]
      exact h
  | drop => exact drop_kept h hg

/-- **Where a Server session can be dropped**: in a run of a fresh Server session, whatever is
    called, arrives and is dropped, every state is safe iff no operation is dropped while a frame
    of it waits for room in the outbound channel. -/
theorem cancel_safe_iff (prost : Prost (SecureMessage β) B) (now : Now)
    (happenings : List (Happening β B)) :
    Throughout (Party.happen prost) (Consistent prost) (Party.fresh .responder now) happenings ↔
      Along (Party.happen prost) DropGuard (Party.fresh .responder now) happenings := by
  have hkeep : ∀ p happening, ServerKept prost p → DropGuard p happening →
      ServerKept prost (p.happen prost happening) := fun p happening h hg => happen_kept h hg
  refine throughout_iff_along hkeep (fun p h => h.2.safe) (fun p happening h hc => ?_) ?_
  · cases happening with
    | wake | frame => trivial
    | drop => exact fun hd => drop_loses h hd hc
  · refine ⟨⟨rfl, nofun⟩, rfl, rfl, fun _ => trivial, fun _ _ => ?_⟩
    exact ⟨rfl, rfl, rfl, rfl, rfl⟩

end Cancel

section Dropped

/-- `receive` reads this message, and is dropped before the answer is in the channel. -/
def answerDropped (body : Control) : List (Happening Nat (SecureMessage Nat)) :=
  [.wake noon (.call .receive), .frame noon (.ciphertext ⟨⟨0, 0⟩, control body⟩), .drop]

/-- **A dropped answer.** Without a Pong in the channel the nonce 0 is used up; without an
    acknowledgement in the channel the incoming key is switched and the outgoing one is not. -/
theorem dropped_answer_unsafe :
    (run (Party.happen sized) (.fresh .responder noon) (answerDropped (.ping 7 0))).handed = [] ∧
      (run (Party.happen sized) (.fresh .responder noon)
        (answerDropped (.ping 7 0))).session.secure.transport.sending = ⟨0, 1⟩ ∧
      (run (Party.happen sized) (.fresh .responder noon)
        (answerDropped (.rekeyRequest 1))).handed = [] ∧
      (run (Party.happen sized) (.fresh .responder noon)
        (answerDropped (.rekeyRequest 1))).session.secure = ⟨⟨⟨0, 1⟩, ⟨1, 1⟩⟩, 0, 2⟩ := by
  decide +kernel

end Dropped

end Smalux.Protocol
