/-
  Subject:   Both ends use the same key for the same frame.

  Each direction has a cipher at both ends. The sender switches to the next key after a request or
  an acknowledgement, the receiver after reading it.

  * `Sends` -- what a party has sealed is one aligned sequence of ciphers, and where it ends;
  * `HasOpened` -- the frames a party has read lead to its receiving cipher;
  * `RekeyGuard` -- no Ping reaches an initiator that waits for an acknowledgement, and after a
    rekey that failed the session is not used again;
  * **`keys_agree_while_guarded`** -- in every run that meets it every frame read is opened with
    the key and nonce it was sealed with.
-/
import Smalux.Protocol.Link

namespace Smalux.Protocol

open Lib List

section Keys

variable {β B : Type} (prost : Prost (SecureMessage β) B) {frames inbox : List (ProtocolFrame B)}
  {cipher : Cipher} {frame : ProtocolFrame B} {next : Next} {message : SecureMessage β}
  {p p' : Party β B} {loop : Bool} {w : Wake β}

/-! ## 1. What a party has sealed -/

/-- The key is switched after this body. -/
def switchesAfter (body : B) : Bool :=
  match prost.decode body with
  | some message => message.switches
  | none => false

/-- The frames hold messages that fit, sealed one after the other up to this cipher. -/
structure SealedUpTo (frames : List (ProtocolFrame B)) (cipher : Cipher) : Prop where
  aligned : ∃ cs : List (Sealed B), frames = cs.map .ciphertext ∧
    Aligned (switchesAfter prost) ⟨0, 0⟩ cs cipher ∧
    ∀ c ∈ cs, ∃ message, c.body = prost.encode message ∧ Fits prost message

variable {prost}

@[simp] theorem switchesAfter_encode (message : SecureMessage β) :
    switchesAfter prost (prost.encode message) = message.switches := by
  unfold switchesAfter
  rw [prost.decode_encode]

theorem SealedUpTo.snoc (h : SealedUpTo prost frames cipher) (hf : Fits prost message) :
    SealedUpTo prost (frames ++ [.ciphertext ⟨cipher, prost.encode message⟩])
      (if message.switches then cipher.next.rekey else cipher.next) := by
  obtain ⟨cs, rfl, haligned, hbodies⟩ := h.aligned
  refine ⟨cs ++ [⟨cipher, prost.encode message⟩], by simp, ?_, ?_⟩
  · have := haligned.snoc (prost.encode message)
    unfold Cipher.after at this
    rwa [switchesAfter_encode] at this
  · intro c hc
    rcases mem_append.mp hc with hc | hc
    · exact hbodies c hc
    · rw [mem_singleton] at hc
      exact ⟨message, by rw [hc], hf⟩

/-- What has been sealed before the last frame. -/
theorem SealedUpTo.init (h : SealedUpTo prost (frames ++ [frame]) cipher) :
    ∃ cipher', SealedUpTo prost frames cipher' := by
  obtain ⟨cs, hcs, haligned, hbodies⟩ := h.aligned
  obtain ⟨before, last, rfl, hb, hl⟩ := map_eq_append_iff.mp hcs.symm
  obtain ⟨c, rest, rfl, rfl, hrest⟩ := map_eq_cons_iff.mp hl
  cases map_eq_nil_iff.mp hrest
  exact ⟨c.cipher, before, hb.symm, haligned.before,
    fun c' hc' => hbodies c' (mem_append_left _ hc')⟩

/-- The cipher the frames lead to, with the frame in hand. In a rekey the next frame will be
    sealed with the next key, which is not yet in use. -/
def Sends (prost : Prost (SecureMessage β) B) (p : Party β B) : Prop :=
  match p.pc with
  | .idle | .receiving | .publishing _ _ =>
    SealedUpTo prost p.handed p.session.secure.transport.sending
  | .sending frame (.resume _) =>
    SealedUpTo prost (p.handed ++ [frame]) p.session.secure.transport.sending
  | .sending frame _ =>
    SealedUpTo prost (p.handed ++ [frame]) p.session.secure.transport.sending.rekey
  | .rekeyWait _ _ => SealedUpTo prost p.handed p.session.secure.transport.sending.rekey
  | .stopped _ => ∃ cipher, SealedUpTo prost p.handed cipher

/-- What it says of a party at `pc`. -/
theorem Sends.at_pc {pc : Pc β B} (h : Sends prost p) (hpc : p.pc = pc) : Sends prost { p with pc } := by
  subst hpc
  exact h

/-- A party that stops drops what it has in hand. -/
theorem Sends.stops (h : Sends prost p) : ∃ cipher, SealedUpTo prost p.handed cipher := by
  unfold Sends at h
  split at h
  · exact ⟨_, h⟩
  · exact ⟨_, h⟩
  · exact ⟨_, h⟩
  · exact h.init
  · exact h.init
  · exact ⟨_, h⟩
  · exact h

theorem Continues.sealing (h : Continues prost p loop p')
    (hs : SealedUpTo prost p.handed p.session.secure.transport.sending) : Sends prost p' := by
  cases h with
  | rests hk | waits hk | returns _ hk | publishes _ _ hk =>
    show SealedUpTo prost p.handed _
    rw [hk.secure]
    exact hs
  | stops => exact ⟨_, hs⟩
  | seals hk hn hl ho hf =>
    rw [← hk.secure] at hs
    cases ho with
    | ping | request => exact hs.snoc hf

theorem Resumes.sealing (h : Resumes prost p next p')
    (hs : SealedUpTo prost p.handed p.session.secure.transport.sending) : Sends prost p' := by
  cases h with
  | done => exact hs
  | on hn hl h => exact h.sealing hs

theorem not_switches_of_user (h : message.isControl = false) : message.switches = false := by
  unfold SecureMessage.switches
  split
  · cases h
  · rfl

/-- A message after which the key stays. -/
theorem SealedUpTo.snoc_same (h : SealedUpTo prost frames cipher) (hf : Fits prost message)
    (hs : message.switches = false) :
    SealedUpTo prost (frames ++ [.ciphertext ⟨cipher, prost.encode message⟩]) cipher.next := by
  have := h.snoc hf
  rwa [hs] at this

theorem Asked.not_switches {body : Control} (h : Asked p body) :
    (control body : SecureMessage β).switches = false := by
  cases h <;> rfl

/-- A manual session has given up a rekey: its outgoing key is behind the peer's. -/
structure Party.Abandoned (p : Party β B) : Prop where
  failed : p.requestFailed = true
  idle : p.pc = .idle
  manual : p.driven = false

/-- The step in which it does so hands nothing over. -/
def GivesUp (p p' : Party β B) : Prop := p'.Abandoned ∧ p'.handed = p.handed

theorem Woken.sealing (h : Woken prost p w p') (hs : Sends prost p) (hn : ¬ GivesUp p p') :
    Sends prost p' := by
  cases h with
  | same | drives => exact hs
  | stops => exact hs.stops
  | abandons hi hd => exact absurd ⟨⟨rfl, rfl, hd⟩, rfl⟩ hn
  | tunes hi hk =>
    unfold Sends
    rw [hi, hk.secure]
    exact hs.at_pc hi
  | starts hi hl h | probes hi h | hands hi h => exact h.sealing (hs.at_pc hi)
  | sends message hi hf =>
    exact (hs.at_pc hi : SealedUpTo _ _ _).snoc_same hf (not_switches_of_user message.property)
  | tells hi hk ha hf =>
    refine SealedUpTo.snoc_same ?_ hf ha.not_switches
    rw [hk.secure]
    exact hs.at_pc hi
  | handsRequest hi => exact hs.at_pc hi
  | handsAck hi hr h =>
    refine h.sealing ?_
    rw [hr.secure]
    exact hs.at_pc hi
  | taken hi h =>
    have hs := hs.at_pc hi
    rcases h with ⟨-, e, rfl⟩ | ⟨hk, -, rfl⟩ | ⟨_, hk, rfl⟩
    · exact ⟨_, hs⟩
    all_goals
      show SealedUpTo prost p.handed _
      rw [hk.secure]
      exact hs

/-- The frame holds a Ping, and the party waits for an acknowledgement. -/
def pingCrosses (prost : Prost (SecureMessage β) B) (p : Party β B) (frame : ProtocolFrame B) :
    Bool :=
  match p.pc, frame with
  | .rekeyWait _ _, .ciphertext c =>
    match prost.decode c.body with
    | some ⟨some (.sessionControl (some (.ping _ _)))⟩ => true
    | _ => false
  | _, _ => false

theorem decoded_of_decrypt {s : SecureSession} (h : (s.decrypt prost frame).1 = .ok message) :
    ∃ c : Sealed B, frame = .ciphertext c ∧ c.cipher = s.transport.receiving ∧
      prost.decode c.body = some message := by
  obtain ⟨c, hframe, hc, hd, -⟩ := decrypt_ok (Prod.ext h rfl)
  exact ⟨c, hframe, hc, hd⟩

theorem ReadsAt.sealing (h : ReadsAt p next) (hs : Sends prost p) :
    SealedUpTo prost p.handed p.session.secure.transport.sending := by
  cases h with
  | receive hi | driver hi => exact hs.at_pc hi

/-- Reading keeps the sequence, unless it answers a Ping in the middle of a rekey. -/
theorem Accepted.sealing (h : Accepted prost p frame p') (hg : pingCrosses prost p frame = false)
    (hs : Sends prost p) (hn : ¬ GivesUp p p') : Sends prost p' := by
  cases h with
  | refused | stops => exact hs.stops
  | abandons hi hd => exact absurd ⟨⟨rfl, rfl, hd⟩, rfl⟩ hn
  | returned hi h hc hr | published hi hd h hc hr | buffered hi h hc hr | ignored hi h hsw hr =>
    show SealedUpTo prost p.handed _
    rw [hr.secure]
    exact hs.at_pc hi
  | handled hi h hsw hr hres =>
    refine hres.sealing ?_
    rw [hr.secure]
    exact hi.sealing hs
  | ponged hi h hr ha hf =>
    refine SealedUpTo.snoc_same ?_ hf ha
    rw [hr.secure]
    exact hi.sealing hs
  | switched hi h hrole hg hr hf =>
    refine SealedUpTo.snoc ?_ hf
    rw [hr.secure]
    exact hi.sealing hs
  | acknowledged hi h hr hres =>
    refine hres.sealing ?_
    rw [hr.secure]
    exact hs.at_pc hi
  | crossed hi h =>
    obtain ⟨c, rfl, -, hd⟩ := decoded_of_decrypt h
    unfold pingCrosses at hg
    rw [hi] at hg
    dsimp only at hg
    rw [hd] at hg
    cases hg

/-! ## 2. What a party has read -/

/-- The frames read so far lead to the cipher the next one has to be sealed with. -/
def HasOpened (prost : Prost (SecureMessage β) B) (p : Party β B) (inbox : List (ProtocolFrame B)) :
    Prop :=
  p.pc.live = true → ∃ cs : List (Sealed B), inbox = cs.map .ciphertext ∧
    Aligned (switchesAfter prost) ⟨0, 0⟩ cs p.session.secure.transport.receiving

/-- Running on leaves the receiving cipher alone. -/
theorem Continues.receiving (h : Continues prost p loop p') :
    p'.session.secure.transport.receiving = p.session.secure.transport.receiving := by
  cases h with
  | rests hk | waits hk | stops hk | seals hk | returns _ hk | publishes _ _ hk =>
    exact congrArg (·.transport.receiving) hk.secure

theorem Resumes.receiving (h : Resumes prost p next p') :
    p'.session.secure.transport.receiving = p.session.secure.transport.receiving := by
  cases h with
  | done => rfl
  | on hn hl h => exact h.receiving

theorem Woken.opening (h : Woken prost p w p') (ho : HasOpened prost p inbox) :
    HasOpened prost p' inbox := by
  have hkeep : p.pc.live = true →
      p'.session.secure.transport.receiving = p.session.secure.transport.receiving →
      HasOpened prost p' inbox := by
    intro hlive hreceiving _
    rw [hreceiving]
    exact ho hlive
  cases h with
  | same => exact ho
  | stops => exact nofun
  | tunes hi hk | tells hi hk =>
    exact hkeep (by rw [hi]; rfl) (congrArg (·.transport.receiving) hk.secure)
  | abandons hi | drives hw hi | sends message hi | handsRequest hi => exact hkeep (by rw [hi]; rfl) rfl
  | starts hi hl h | probes hi h | hands hi h => exact hkeep (by rw [hi]; rfl) h.receiving
  | handsAck hi hr h =>
    refine hkeep (by rw [hi]; rfl) (h.receiving.trans ?_)
    exact congrArg (·.transport.receiving) hr.secure
  | taken hi h =>
    refine hkeep (by rw [hi]; rfl) ?_
    rcases h with ⟨hk, -⟩ | ⟨hk, -⟩ | ⟨_, hk, -⟩ <;>
      exact congrArg (·.transport.receiving) hk.secure

/-- A frame that has been read: the receiver has taken the step the sender took. -/
theorem HasOpened.read (ho : HasOpened prost p inbox) (hlive : p.pc.live = true)
    (h : Opens prost p frame message)
    (hr : p'.session.secure.transport.receiving =
      if message.switches then p.session.secure.transport.receiving.next.rekey
      else p.session.secure.transport.receiving.next) : HasOpened prost p' (inbox ++ [frame]) := by
  intro _
  obtain ⟨cs, rfl, haligned⟩ := ho hlive
  obtain ⟨c, rfl, hc, hd⟩ := decoded_of_decrypt h
  refine ⟨cs ++ [c], by simp, ?_⟩
  have hsnoc := haligned.snoc c.body
  have hcipher : (⟨p.session.secure.transport.receiving, c.body⟩ : Sealed B) = c := by
    rw [← hc]
  rw [hcipher] at hsnoc
  have hsw : switchesAfter prost c.body = message.switches := by
    unfold switchesAfter
    rw [hd]
  unfold Cipher.after at hsnoc
  rw [hsw, ← hr] at hsnoc
  exact hsnoc

theorem HasRead.receiving {s s' : TonicNoiseSession β} (h : HasRead s s') :
    s'.secure.transport.receiving = s.secure.transport.receiving.next := by
  rw [h.secure]
  rfl

theorem Accepted.opening (h : Accepted prost p frame p') (ho : HasOpened prost p inbox)
    (hn : ¬ GivesUp p p') : HasOpened prost p' (inbox ++ [frame]) := by
  cases h with
  | refused | stops => exact nofun
  | abandons hi hd => exact absurd ⟨⟨rfl, rfl, hd⟩, rfl⟩ hn
  | returned hi h hc hr | published hi hd h hc hr | buffered hi h hc hr =>
    refine ho.read (by rw [hi]; rfl) h ?_
    rw [not_switches_of_user hc]
    exact hr.receiving
  | handled hi h hs hr hres =>
    refine ho.read hi.live h (hres.receiving.trans ?_)
    rw [show (control _ : SecureMessage β).switches = false from hs]
    exact hr.receiving
  | ponged hi h hr => exact ho.read hi.live h hr.receiving
  | switched hi h hrole hg hr =>
    exact ho.read hi.live h (congrArg (·.transport.receiving) hr.secure)
  | acknowledged hi h hr hres =>
    refine ho.read (by rw [hi]; rfl) h (hres.receiving.trans ?_)
    exact congrArg (·.transport.receiving) hr.secure
  | ignored hi h hs hr =>
    refine ho.read (by rw [hi]; rfl) h ?_
    rw [show (control _ : SecureMessage β).switches = false from hs]
    exact hr.receiving
  | crossed hi h hr => exact ho.read (by rw [hi]; rfl) h hr.receiving

/-! ## 3. The link -/

/-- The user of a session calls an operation, or gives the session to a driver. -/
def Wake.uses : Wake β → Bool
  | .call _ => true
  | .drive => true
  | _ => false

/-- No Ping reaches a party that waits for an acknowledgement, and one whose request has failed is
    not used again. -/
def RekeyGuard (prost : Prost (SecureMessage β) B) (link : Link β B) : LinkAct β → Prop
  | .deliver role _ => ∀ frame ∈ (link.unread role).head?,
      pingCrosses prost (link.party role) frame = false
  | .wake role _ w => (link.party role).requestFailed = true → w.uses = false

instance (link : Link β B) : ∀ act, Decidable (RekeyGuard prost link act)
  | .deliver role _ =>
    match h : (link.unread role).head? with
    | none => .isTrue (by simp [RekeyGuard, h])
    | some frame =>
      decidable_of_iff (pingCrosses prost (link.party role) frame = false)
        (by simp [RekeyGuard, h])
  | .wake role _ w =>
    inferInstanceAs (Decidable ((link.party role).requestFailed = true → w.uses = false))

/-- A frame that is read is opened with the key and the nonce it was sealed with. -/
def Decrypts (prost : Prost (SecureMessage β) B) (link : Link β B) : LinkAct β → Prop
  | .deliver role _ => ∀ frame ∈ (link.unread role).head?, (link.party role).reads = true →
      ∃ c message, frame = .ciphertext c ∧
        c.cipher = (link.party role).session.secure.transport.receiving ∧
        ((link.party role).session.secure.decrypt prost frame).1 = .ok message
  | .wake _ _ _ => True

/-- What is true of each party: what it has sealed, and what it has opened. Of one that has given
    up a rekey it is true only that it has sealed frames one after the other. -/
def KeysKept (prost : Prost (SecureMessage β) B) (p : Party β B) (inbox : List (ProtocolFrame B)) :
    Prop :=
  p.Abandoned ∧ (∃ cipher, SealedUpTo prost p.handed cipher) ∨ Sends prost p ∧ HasOpened prost p inbox

theorem KeysKept.sealed (h : KeysKept prost p inbox) : ∃ cipher, SealedUpTo prost p.handed cipher :=
  h.elim And.right fun h => h.1.stops

theorem Party.Abandoned.not_reads (h : p.Abandoned) : ¬ p.reads = true := by
  unfold Party.reads
  rw [h.idle, h.manual]
  exact Bool.false_ne_true

/-- Nothing happens to a party that has given up and is not used. -/
theorem Party.Abandoned.wake (h : p.Abandoned) (now : Now) (hw : w.uses = false) :
    p.wake prost now w = p := by
  unfold Party.wake
  rw [h.idle, h.manual]
  cases w with
  | call | drive => cases hw
  | _ => rfl

/-- A step of a party that has not given up before. -/
theorem KeysKept.of_step (hs : Sends prost p)
    (h : ¬ GivesUp p p' → Sends prost p' ∧ HasOpened prost p' inbox) : KeysKept prost p' inbox := by
  by_cases hn : GivesUp p p'
  · exact .inl ⟨hn.1, hn.2 ▸ hs.stops⟩
  · exact .inr (h hn)

theorem keysKept_step (link : Link β B) (act : LinkAct β) (h : Holds (KeysKept prost) link)
    (hg : RekeyGuard prost link act) : Holds (KeysKept prost) (link.step prost act) := by
  cases act with
  | wake role now w =>
    rcases h.holds role with ⟨hab, -⟩ | ⟨hs, ho⟩
    · dsimp only [Link.step]
      rw [hab.wake now (hg hab.failed), link.set_party]
      exact h
    · refine h.step _ (fun role now w hact p' hw => ?_) nofun
      cases hact
      exact .of_step hs fun hn => ⟨hw.sealing hs hn, hw.opening ho⟩
  | deliver role now =>
    rcases h.holds role with ⟨hab, -⟩ | ⟨hs, ho⟩
    · dsimp only [Link.step]
      split
      · rw [accept_of_not_reads now hab.not_reads, link.set_party]
        exact h
      · exact h
    · refine h.step _ nofun fun role now frame rest hact hu p' ha => ?_
      cases hact
      have hcross := hg frame (by rw [hu]; rfl)
      exact .of_step hs fun hn => ⟨ha.sealing hcross hs hn, ha.opening ho hn⟩

/-- The next frame is sealed with the cipher the receiver has come to. -/
theorem decrypts_of_kept (link : Link β B) (act : LinkAct β) (h : Holds (KeysKept prost) link) :
    Decrypts prost link act := by
  cases act with
  | wake => trivial
  | deliver role =>
    intro frame hframe hreads
    obtain ⟨rest, hu⟩ := List.head?_eq_some_iff.mp hframe
    obtain ⟨cipher, hsealed⟩ := (h.holds role.peer).sealed
    obtain ⟨cs, hcs, haligned, hbodies⟩ := hsealed.aligned
    obtain ⟨hab, -⟩ | ⟨-, hopens⟩ := h.holds role
    · exact absurd hreads hab.not_reads
    obtain ⟨read, hread, hopened⟩ := hopens (live_of_reads hreads)
    have hsplit : (link.party role.peer).handed = link.inbox role ++ frame :: rest := by
      rw [← hu]
      exact (take_append_drop _ _).symm
    rw [hcs, hread] at hsplit
    obtain ⟨first, last, rfl, hfirst, hlast⟩ := map_eq_append_iff.mp hsplit
    obtain ⟨c, later, rfl, rfl, -⟩ := map_eq_cons_iff.mp hlast
    have hsame : first = read :=
      map_injective_iff.mpr (fun _ _ h => ProtocolFrame.ciphertext.inj h) hfirst
    subst hsame
    have hcipher : c.cipher = (link.party role).session.secure.transport.receiving :=
      haligned.before.unique hopened
    obtain ⟨message, hbody, hfits⟩ := hbodies c (by simp)
    refine ⟨c, message, rfl, hcipher, ?_⟩
    have hc : c = ⟨(link.party role).session.secure.transport.receiving,
        prost.encode message⟩ := by
      rw [← hcipher, ← hbody]
    rw [hc, decrypt_of_fits hfits]

theorem keysKept_fresh (now : Now) : Holds (KeysKept prost) (Link.fresh now) := by
  have hsealed : SealedUpTo prost [] ⟨0, 0⟩ := ⟨[], rfl, rfl, by simp⟩
  refine ⟨fun role => ?_, fun role => ?_, fun role => ?_⟩
  · cases role <;> exact ⟨rfl, nofun⟩
  · cases role <;> exact Nat.zero_le _
  · cases role <;> exact .inr ⟨hsealed, fun _ => ⟨[], rfl, rfl⟩⟩

/-- **Both ends use the same key**: in every run of a fresh link in which no Ping reaches the
    initiator while it waits for an acknowledgement, and in which it is not used again after a
    `request_rekey` that failed, every frame that is read is opened with the key and the nonce it
    was sealed with. -/
theorem keys_agree_while_guarded (prost : Prost (SecureMessage β) B) (now : Now)
    (acts : List (LinkAct β))
    (h : Along (Link.step prost) (RekeyGuard prost) (Link.fresh now) acts) :
    Along (Link.step prost) (Decrypts prost) (Link.fresh now) acts :=
  along_of_invariant (fun link act hi hg => keysKept_step link act hi hg)
    (fun link act hi _ => decrypts_of_kept link act hi) (keysKept_fresh now) h

end Keys

section Crossing

def noon : Now := ⟨0, 0⟩

/-- The initiator sends a request, the responder answers it in `receive`. -/
def rekeyed : List (LinkAct Nat) :=
  [.wake .initiator noon (.call .requestRekey), .wake .initiator noon .room,
   .wake .responder noon (.call .receive), .deliver .responder noon,
   .wake .responder noon .room, .deliver .initiator noon,
   .wake .initiator noon (.call (.send ⟨reportOf 8, rfl⟩)), .wake .initiator noon .room,
   .deliver .responder noon]

/-- The responder pings just before, and the Ping reaches the waiting initiator. -/
def pingCrossing : List (LinkAct Nat) :=
  [.wake .responder noon (.call (.ping 7)), .wake .responder noon .room,
   .wake .initiator noon (.call .requestRekey), .wake .initiator noon .room,
   .wake .responder noon (.call .receive), .deliver .responder noon,
   .wake .responder noon .room, .deliver .initiator noon, .wake .initiator noon .room,
   .deliver .responder noon]

/-- The initiator does not wait for the acknowledgement any longer, and sends a report. -/
def reportAfterTimeout : List (LinkAct Nat) :=
  [.wake .initiator noon (.call .requestRekey), .wake .initiator noon .room,
   .wake .initiator noon .elapsed, .wake .initiator noon (.call (.send ⟨reportOf 8, rfl⟩)),
   .wake .initiator noon .room, .wake .responder noon (.call .receive),
   .deliver .responder noon, .wake .responder noon .room, .deliver .responder noon]

theorem keys_agree_in_rekey : Along (Link.step sized) (RekeyGuard sized) (Link.fresh noon) rekeyed ∧
      Along (Link.step sized) (Decrypts sized) (Link.fresh noon) rekeyed := by
  have h : Along (Link.step sized) (RekeyGuard sized) (Link.fresh noon) rekeyed := by
    decide +kernel
  exact ⟨h, keys_agree_while_guarded sized noon rekeyed h⟩

/-- **A Ping that crosses a request breaks the session**: the Pong is sealed with the old key, and
    the responder, which has switched already, cannot open it. So does a report after a request
    that has timed out. -/
theorem crossing_ping_breaks_session :
    (run (Link.step sized) (Link.fresh noon) pingCrossing).responder.pc =
      .stopped (.noise (.crypto .decrypt)) ∧
    (run (Link.step sized) (Link.fresh noon) reportAfterTimeout).responder.pc =
      .stopped (.noise (.crypto .decrypt)) := by
  decide +kernel

end Crossing

end Smalux.Protocol
