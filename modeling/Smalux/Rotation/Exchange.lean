/-
  Subject:   One Server key ring, one registered Agent, and the announcements between them.

  The Server rotates its key; it announces the next key over the Agent's session; the Agent stages
  and stores what it is told, and on a reconnect tries its candidates in order
  (client/supervisor.rs `process_session_event`, client/connection.rs `connect_registered`).

  * **`announcements_accepted_while_clear`** -- if a rotation is prepared only when the Agent has no
    pending key and no announcement is under way, every announcement of the next key is accepted;
  * **`current_key_known_iff`** -- exactly when the Server's current key stays among the Agent's
    candidates.
-/
import Smalux.Lib.Run
import Smalux.Rotation.Keys

namespace Smalux.Rotation

open Lib List PinnedServerKeys ServerKeyRing

variable {pinned : PinnedServerKeys} {number : Nat}

/-! ## 1. The system -/

/-- Announcements carry the number of their rotation, for the statements only. -/
structure Exchange where
  ring : ServerKeyRing
  /-- what the Agent has stored -/
  pinned : PinnedServerKeys
  /-- announcements on their way to the Agent, the oldest first -/
  underWay : List (Nat × ServerKeyAnnouncement) := []
  /-- how many rotations the Server has prepared -/
  rotation : Nat := 0
  /-- whether the Agent has staged and stored the rotation prepared last -/
  staged : Bool := false
  deriving DecidableEq

inductive Act where
  | prepare (drawn : Except NoiseError (NoiseIdentity × RotationId))
  | promote (rotationId : RotationId)
  | cancel
  | retire
  | announce
  /-- the oldest announcement arrives; it may arrive `again` later -/
  | deliver (again : Bool)
  | reconnect

namespace Exchange

variable (digest : NoisePublicKey → KeyId) {ring : ServerKeyRing} {w : Exchange}
  {a : ServerKeyAnnouncement} {act : Act}

section

variable (w : Exchange)

/-- A registered Agent has pinned the Server's current key. -/
def start (ring : ServerKeyRing) : Exchange :=
  { ring, pinned := .new ring.state.current.publicKey }

/-- Whether the Agent's store holds the rotation in progress as its pending one. -/
def holdsRotation (ring : ServerKeyRing) (pinned : PinnedServerKeys) : Bool :=
  decide (ring.state.next.map (·.publicKey) = pinned.state.pending ∧
    ring.state.rotationId = pinned.state.rotationId)

theorem holdsRotation_iff : holdsRotation ring pinned = true ↔
      ring.state.next.map (·.publicKey) = pinned.state.pending ∧
        ring.state.rotationId = pinned.state.rotationId := by
  simp [holdsRotation]

/-- `process_session_event` on an announcement: an error ends the Agent's client, nothing is
    stored. -/
def receive (number : Nat) (a : ServerKeyAnnouncement) : Exchange :=
  match w.pinned.stage digest a with
  | .error _ => w
  | .ok pinned =>
    { w with
      pinned
      staged := w.staged || decide (number = w.rotation) && holdsRotation w.ring pinned }

/-- `connect_registered`: the pending key is promoted if it is the one that connected. -/
def reconnect : Exchange :=
  match connectWithCandidates digest w.ring w.pinned.connectionCandidates with
  | none => w
  | some key =>
    if w.pinned.state.pending = some key then
      match w.pinned.state.rotationId with
      | none => w
      | some rotationId =>
        match w.pinned.promotePending rotationId with
        | .error _ => w
        | .ok pinned => { w with pinned }
    else w

/-- A ring operation; an error changes nothing. -/
def withRing : Except NoiseError ServerKeyRing → Exchange
  | .error _ => w
  | .ok ring => { w with ring }

def step : Act → Exchange
  | .prepare drawn =>
    match w.ring.prepareRotation drawn with
    | .error _ => w
    | .ok ring => { w with ring, rotation := w.rotation + 1, staged := false }
  | .promote rotationId => w.withRing (w.ring.promoteNext rotationId)
  | .cancel => w.withRing w.ring.cancelRotation
  | .retire => w.withRing w.ring.retirePrevious
  | .announce =>
    match w.ring.announcement digest with
    | none => w
    | some a => { w with underWay := w.underWay ++ [(w.rotation, a)] }
  | .deliver again =>
    match w.underWay with
    | [] => w
    | (number, a) :: rest =>
      { w.receive digest number a with underWay := if again then (number, a) :: rest else rest }
  | .reconnect => w.reconnect digest

/-! ## 2. What the small steps do -/

/-- The key the Agent would promote on a reconnect now. -/
def promotes : Option NoisePublicKey :=
  (connectWithCandidates digest w.ring w.pinned.connectionCandidates).filter
    fun key => decide (w.pinned.state.pending = some key)

/-- **A reconnect** leaves the keys, or promotes the pending key that connected. -/
theorem reconnect_cases : w.promotes digest = none ∧ w.reconnect digest = w ∨
      ∃ key pinned, w.promotes digest = some key ∧ w.pinned.state.pending = some key ∧
        pinned.state = ⟨key, none, some w.pinned.state.current, none⟩ ∧
        w.reconnect digest = { w with pinned } := by
  unfold promotes reconnect
  split
  · rename_i hnone
    exact .inl ⟨by rw [hnone]; rfl, rfl⟩
  · rename_i key hkey
    rw [hkey]
    split
    · rename_i hpending
      have hid : w.pinned.state.rotationId.isSome := by rw [← w.pinned.paired, hpending]; rfl
      obtain ⟨rotationId, hid⟩ := Option.isSome_iff_exists.mp hid
      have hpromote : w.pinned.promotePending rotationId =
          .ok ⟨⟨key, none, some w.pinned.state.current, none⟩, rfl⟩ := by
        simp [promotePending, hid, hpending]
      refine .inr ⟨key, ⟨⟨key, none, some w.pinned.state.current, none⟩, rfl⟩, ?_, hpending, rfl, ?_⟩
      · simp [hpending]
      · simp only [hid, hpromote]
    · rename_i hpending
      exact .inl ⟨by simp [hpending], rfl⟩

variable {w} in
/-- What holds, and holds with the new ring, holds after a ring operation. -/
theorem withRing_keep {P : Exchange → Prop} (hw : P w) {r : Except NoiseError ServerKeyRing}
    (h : ∀ ring, r = .ok ring → P { w with ring }) : P (w.withRing r) := by
  cases r with
  | error => exact hw
  | ok ring => exact h ring rfl

/-! ## 3. Announcements are accepted -/

/-- An announcement of the Server's current next key that arrives is staged. -/
def Accepted : Act → Prop
  | .deliver _ =>
    ∀ a ∈ (w.underWay.head?.map Prod.snd).toList,
      w.ring.announcement digest = some a → (w.pinned.stage digest a).isOk = true
  | _ => True

/-- A rotation is prepared only when the Agent has no pending key and no announcement is under
    way. -/
def PreparesClear : Act → Prop
  | .prepare drawn =>
    (w.ring.prepareRotation drawn).isOk = true →
      w.pinned.state.pending = none ∧ w.underWay = []
  | _ => True

instance Accepted.decidable (w : Exchange) : ∀ act, Decidable (w.Accepted digest act)
  | .deliver _ => inferInstanceAs (Decidable (∀ a ∈ (w.underWay.head?.map Prod.snd).toList, _ → _))
  | .prepare _ | .promote _ | .cancel | .retire | .announce | .reconnect => .isTrue trivial

instance PreparesClear.decidable (w : Exchange) : ∀ act, Decidable (w.PreparesClear act)
  | .prepare _ => inferInstanceAs (Decidable (_ → _))
  | .deliver _ | .promote _ | .cancel | .retire | .announce | .reconnect => .isTrue trivial

/-- While a rotation is in progress, what is under way announces it, and the Agent's pending key
    is its key. -/
structure InStep (w : Exchange) : Prop where
  underWay : ∀ e ∈ w.underWay,
    w.ring.state.next = none ∨ w.ring.announcement digest = some e.2
  pending : w.ring.state.next = none ∨ w.pinned.state.pending = none ∨
    holdsRotation w.ring w.pinned = true

end

variable {digest}

theorem InStep.of_idle (h : w.ring.state.next = none) : w.InStep digest :=
  ⟨fun _ _ => .inl h, .inl h⟩

theorem InStep.withRing (hi : w.InStep digest) (hnext : ring.state.next = w.ring.state.next)
    (hid : ring.state.rotationId = w.ring.state.rotationId) : InStep digest { w with ring } := by
  refine ⟨fun e he => ?_, ?_⟩
  · rw [announcement_of_state digest hnext hid, hnext]
    exact hi.underWay e he
  · rw [holdsRotation_iff, hnext, hid, ← holdsRotation_iff]
    exact hi.pending

theorem InStep.receive (hi : w.InStep digest) (ha : (number, a) ∈ w.underWay) :
    InStep digest (w.receive digest number a) := by
  unfold Exchange.receive
  split
  · exact hi
  · rename_i pinned hstage
    refine ⟨hi.underWay, ?_⟩
    rcases hi.underWay _ ha with hnone | hours
    · exact .inl hnone
    · obtain ⟨next, rotationId, hnext, hid, hkey⟩ :=
        stage_announcement digest hours w.pinned
      rw [hkey] at hstage
      rcases stageKey_cases hstage with ⟨rfl, _⟩ | ⟨_, hstate⟩
      · exact hi.pending
      · refine .inr (.inr (holdsRotation_iff.mpr ?_))
        rw [hstate, hnext, hid]
        exact ⟨rfl, rfl⟩

/-- **Every step keeps Server and Agent in step.** -/
theorem InStep.step (hi : w.InStep digest) (hact : w.PreparesClear act) :
    (w.step digest act).InStep digest := by
  cases act with
  | prepare =>
    simp only [Exchange.step]
    split
    · exact hi
    · rename_i ring hring
      obtain ⟨hpending, hempty⟩ := hact (by rw [hring]; rfl)
      refine ⟨fun e he => ?_, .inr (.inl hpending)⟩
      rw [hempty] at he
      cases he
  | promote =>
    refine withRing_keep hi fun ring hring => ?_
    obtain ⟨next, _, hstate⟩ := promoteNext_ok hring
    exact .of_idle (by rw [hstate])
  | cancel =>
    refine withRing_keep hi fun ring hring => ?_
    exact .of_idle (by rw [cancelRotation_ok hring])
  | retire =>
    refine withRing_keep hi fun ring hring => ?_
    have hstate := retirePrevious_ok hring
    exact hi.withRing (by rw [hstate]) (by rw [hstate])
  | announce =>
    simp only [Exchange.step]
    split
    · exact hi
    · rename_i a ha
      refine ⟨fun e he => ?_, hi.pending⟩
      rcases mem_append.mp he with he | he
      · exact hi.underWay e he
      · rw [mem_singleton.mp he]
        exact .inr ha
  | deliver again =>
    simp only [Exchange.step]
    split
    · exact hi
    · rename_i number a rest hway
      have hr : InStep digest (w.receive digest number a) :=
        hi.receive (by rw [hway]; exact mem_cons_self)
      refine ⟨fun e he => ?_, hr.pending⟩
      have hring : (w.receive digest number a).ring = w.ring := by
        unfold Exchange.receive
        split <;> rfl
      have he : e ∈ w.underWay := by
        rw [hway]
        cases again with
        | true => exact he
        | false => exact mem_cons_of_mem _ he
      rw [hring]
      exact hi.underWay e he
  | reconnect =>
    rcases reconnect_cases digest w with ⟨_, h⟩ | ⟨key, pinned, _, _, hstate, h⟩
    · rw [Exchange.step, h]
      exact hi
    · rw [Exchange.step, h]
      exact ⟨hi.underWay, .inr (.inl (by rw [hstate]))⟩

theorem InStep.accepted (hi : w.InStep digest) : w.Accepted digest act := by
  cases act with
  | deliver =>
    intro a _ hours
    obtain ⟨next, rotationId, hnext, hid, hkey⟩ :=
      stage_announcement digest hours w.pinned
    rw [hkey, stageKey_isOk_iff]
    rcases hi.pending with hnone | hnone | hholds
    · rw [hnone] at hnext
      cases hnext
    · exact .inl hnone
    · obtain ⟨hpending, hrotation⟩ := holdsRotation_iff.mp hholds
      exact .inr ⟨by rw [← hrotation, hid], by rw [← hpending, hnext]; rfl⟩
  | prepare | promote | cancel | retire | announce | reconnect => exact trivial

/-- **Every announcement of the next key is accepted** in every run that prepares a rotation only
    when the Agent has no pending key and no announcement is under way. -/
theorem announcements_accepted_while_clear (digest : NoisePublicKey → KeyId) (ring : ServerKeyRing)
    (acts : List Act) (h : Along (Exchange.step digest) PreparesClear (start ring) acts) :
    Along (Exchange.step digest) (Accepted digest) (start ring) acts :=
  along_of_invariant (fun _ _ hi hact => InStep.step hi hact) (fun _ _ hi _ => hi.accepted)
    ⟨nofun, .inr (.inl rfl)⟩ h

def prepareOf (byte : UInt8) : Act := .prepare (.ok (identityOf byte, .replicate _ byte))

/-- A rotation announced twice, stored, promoted, and followed by the next one. -/
theorem announcements_accepted_in_turn :
    Along (Exchange.step id) (Accepted id) (start (.new (identityOf 0)))
      [prepareOf 1, .announce, .deliver true, .deliver false, .promote (.replicate _ 1), .reconnect,
        .retire, prepareOf 2, .announce, .deliver false] :=
  announcements_accepted_while_clear id (.new (identityOf 0)) _ (by decide +kernel)

/-- **A refused announcement**: the Agent stored a key whose rotation was then cancelled; the key of
    the next rotation is refused, and the Agent's client ends. -/
theorem cancelled_key_blocks_next :
    ¬ Along (Exchange.step id) (Accepted id) (start (.new (identityOf 0)))
      [prepareOf 1, .announce, .deliver false, .cancel, prepareOf 2, .announce, .deliver false] := by
  decide +kernel

/-! ## 4. The Server's current key stays known -/

/-- The Agent can still connect: the Server's current key is one of its candidates. -/
def Known (w : Exchange) : Prop :=
  w.ring.state.current.publicKey ∈ w.pinned.connectionCandidates
  deriving Decidable

/-- The Server promotes a rotation only after the Agent has staged and stored it. -/
def PromotesStaged (w : Exchange) : Act → Prop
  | .promote rotationId => (w.ring.promoteNext rotationId).isOk = true → w.staged = true
  | _ => True

/-- A reconnect promotes the pending key only if the Server's current key is that key or the
    Agent's current one: the Agent's previous key is given up. -/
def KeepsCurrent (digest : NoisePublicKey → KeyId) (w : Exchange) : Act → Prop
  | .reconnect => ∀ key ∈ w.promotes digest,
      w.ring.state.current.publicKey = key ∨
        w.ring.state.current.publicKey = w.pinned.state.current
  | _ => True

instance PromotesStaged.decidable (w : Exchange) : ∀ act, Decidable (w.PromotesStaged act)
  | .promote _ => inferInstanceAs (Decidable (_ → _))
  | .deliver _ | .prepare _ | .cancel | .retire | .announce | .reconnect => .isTrue trivial

instance KeepsCurrent.decidable (w : Exchange) : ∀ act, Decidable (w.KeepsCurrent digest act)
  | .reconnect => inferInstanceAs (Decidable (∀ key ∈ w.promotes digest, _))
  | .deliver _ | .prepare _ | .promote _ | .cancel | .retire | .announce => .isTrue trivial

/-- What is under way is in order, and once a rotation is staged only its own announcement is; the
    Agent then has its key pending, or has promoted it and has none pending. -/
structure Tracked (digest : NoisePublicKey → KeyId) (w : Exchange) : Prop where
  known : w.Known
  sorted : w.underWay.Pairwise fun e e' => e.1 ≤ e'.1
  bounded : ∀ e ∈ w.underWay, e.1 ≤ w.rotation
  announced : ∀ e ∈ w.underWay, e.1 = w.rotation →
    w.ring.state.next = none ∨ w.ring.announcement digest = some e.2
  last : w.staged = true → ∀ e ∈ w.underWay, e.1 = w.rotation
  held : w.staged = true → ∀ next, w.ring.state.next = some next →
    w.pinned.state.pending = some next.publicKey ∨
      w.pinned.state.pending = none ∧ w.pinned.state.current = next.publicKey

theorem start_tracked (ring : ServerKeyRing) : Tracked digest (start ring) where
  known := mem_cons_self
  sorted := List.Pairwise.nil
  bounded _ he := absurd he not_mem_nil
  announced _ he := absurd he not_mem_nil
  last h := (by cases h)
  held h := (by cases h)

theorem Tracked.withRing (hi : Tracked digest w)
    (hknown : ring.state.current.publicKey ∈ w.pinned.connectionCandidates)
    (hnext : ring.state.next = none ∨
      ring.state.next = w.ring.state.next ∧ ring.state.rotationId = w.ring.state.rotationId) :
    Tracked digest { w with ring } := by
  refine ⟨hknown, hi.sorted, hi.bounded, fun e he hnumber => ?_, hi.last, fun hs next hsome => ?_⟩
  · rcases hnext with hnone | ⟨hnext, hid⟩
    · exact .inl hnone
    · rw [announcement_of_state digest hnext hid, hnext]
      exact hi.announced e he hnumber
  · rcases hnext with hnone | ⟨hnext, _⟩
    · rw [show ({ w with ring } : Exchange).ring.state.next = none from hnone] at hsome
      cases hsome
    · exact hi.held hs next (hnext ▸ hsome)

theorem Tracked.fewer {underWay : List (Nat × ServerKeyAnnouncement)} (hi : Tracked digest w)
    (hsub : underWay.Sublist w.underWay) : Tracked digest { w with underWay } where
  known := hi.known
  sorted := hi.sorted.sublist hsub
  bounded e he := hi.bounded e (hsub.subset he)
  announced e he := hi.announced e (hsub.subset he)
  last hs e he := hi.last hs e (hsub.subset he)
  held := hi.held

theorem known_of_stage (hk : w.Known) (hstage : w.pinned.stage digest a = .ok pinned) :
    w.ring.state.current.publicKey ∈ pinned.connectionCandidates := by
  rcases stage_cases digest hstage with rfl | ⟨hnone, key, rotationId, hstate⟩
  · exact hk
  · rw [mem_candidates, hstate]
    rcases mem_candidates.mp hk with h | h
    · rw [hnone] at h
      cases h
    · exact .inr h

/-- The oldest announcement under way is received. -/
theorem Tracked.receive {rest : List (Nat × ServerKeyAnnouncement)} (hi : Tracked digest w)
    (hway : w.underWay = (number, a) :: rest) : Tracked digest (w.receive digest number a) := by
  have hfirst : ∀ e ∈ w.underWay, number ≤ e.1 := by
    intro e he
    have hsorted := hi.sorted
    rw [hway] at he hsorted
    rcases mem_cons.mp he with rfl | he
    · exact Nat.le_refl _
    · exact (pairwise_cons.mp hsorted).1 e he
  unfold Exchange.receive
  split
  · exact hi
  · rename_i pinned hstage
    have hknown := known_of_stage hi.known hstage
    refine ⟨hknown, hi.sorted, hi.bounded, hi.announced, fun hs e he => ?_,
      fun hs next hnext => ?_⟩
    · rcases Bool.or_eq_true_iff.mp hs with hs | hs
      · exact hi.last hs e he
      · have hnumber : number = w.rotation := of_decide_eq_true (Bool.and_eq_true_iff.mp hs).1
        exact Nat.le_antisymm (hi.bounded e he) (hnumber ▸ hfirst e he)
    · rcases Bool.or_eq_true_iff.mp hs with hold | hs
      · -- what arrives is the announcement of the rotation already staged
        have hmem : (number, a) ∈ w.underWay := by rw [hway]; exact mem_cons_self
        rcases hi.announced _ hmem (hi.last hold _ hmem) with hnone | hours
        · rw [hnone] at hnext
          cases hnext
        · obtain ⟨next', rotationId, hnext', -, hkey⟩ :=
            stage_announcement digest hours w.pinned
          obtain rfl : next' = next := Option.some.inj (hnext'.symm.trans hnext)
          rw [hkey] at hstage
          rcases stageKey_cases hstage with ⟨rfl, _⟩ | ⟨_, hstate⟩
          · exact hi.held hold _ hnext
          · exact .inl (by rw [hstate])
      · have hholds := (holdsRotation_iff.mp (Bool.and_eq_true_iff.mp hs).2).1
        rw [hnext] at hholds
        exact .inl hholds.symm

/-- **One step** keeps the Agent in touch, if the rotation was staged and the reconnect keeps the
    current key. -/
theorem Tracked.step (hi : Tracked digest w) (hpromote : w.PromotesStaged act)
    (hkeep : w.KeepsCurrent digest act) : Tracked digest (w.step digest act) := by
  cases act with
  | prepare =>
    simp only [Exchange.step]
    split
    · exact hi
    · rename_i ring hring
      obtain ⟨_, _, next, rotationId, _, hstate⟩ := prepareRotation_ok hring
      refine ⟨?_, hi.sorted, fun e he => Nat.le_succ_of_le (hi.bounded e he), fun e he hnumber => ?_,
        nofun, nofun⟩
      · show ring.state.current.publicKey ∈ w.pinned.connectionCandidates
        rw [hstate]
        exact hi.known
      · have hle := hi.bounded e he
        rw [show e.1 = w.rotation + 1 from hnumber] at hle
        exact absurd hle (Nat.not_succ_le_self _)
  | promote =>
    refine withRing_keep hi fun ring hring => ?_
    obtain ⟨next, hnext, hstate⟩ := promoteNext_ok hring
    have hs : w.staged = true := hpromote (by rw [hring]; rfl)
    refine hi.withRing ?_ (.inl (by rw [hstate]))
    rw [hstate, mem_candidates]
    rcases hi.held hs next hnext with hpending | ⟨_, hcurrent⟩
    · exact .inl hpending
    · exact .inr (.inl hcurrent.symm)
  | cancel =>
    refine withRing_keep hi fun ring hring => ?_
    have hstate := cancelRotation_ok hring
    exact hi.withRing (by rw [hstate]; exact hi.known) (.inl (by rw [hstate]))
  | retire =>
    refine withRing_keep hi fun ring hring => ?_
    have hstate := retirePrevious_ok hring
    exact hi.withRing (by rw [hstate]; exact hi.known) (.inr (by rw [hstate]; exact ⟨rfl, rfl⟩))
  | announce =>
    simp only [Exchange.step]
    split
    · exact hi
    · rename_i a ha
      refine ⟨hi.known, ?_, fun e he => ?_, fun e he hnumber => ?_, fun hs e he => ?_, hi.held⟩
      · refine pairwise_append.mpr ⟨hi.sorted, pairwise_singleton _ _, fun e he e' he' => ?_⟩
        rw [mem_singleton.mp he']
        exact hi.bounded e he
      · rcases mem_append.mp he with he | he
        · exact hi.bounded e he
        · obtain rfl := mem_singleton.mp he
          exact Nat.le_refl _
      · rcases mem_append.mp he with he | he
        · exact hi.announced e he hnumber
        · obtain rfl := mem_singleton.mp he
          exact .inr ha
      · rcases mem_append.mp he with he | he
        · exact hi.last hs e he
        · obtain rfl := mem_singleton.mp he
          rfl
  | deliver again =>
    simp only [Exchange.step]
    split
    · exact hi
    · rename_i number a rest hway
      refine (hi.receive hway).fewer ?_
      have hsame : (w.receive digest number a).underWay = (number, a) :: rest := by
        rw [← hway]
        unfold Exchange.receive
        split <;> rfl
      rw [hsame]
      cases again with
      | true => exact List.Sublist.refl _
      | false => exact sublist_cons_self _ _
  | reconnect =>
    rcases reconnect_cases digest w with ⟨_, h⟩ | ⟨key, pinned, hkey, hpending, hstate, h⟩
    · rw [Exchange.step, h]
      exact hi
    · rw [Exchange.step, h]
      refine ⟨?_, hi.sorted, hi.bounded, hi.announced, hi.last, fun hs next hnext => ?_⟩
      · show w.ring.state.current.publicKey ∈ pinned.connectionCandidates
        rw [mem_candidates, hstate]
        rcases hkeep key hkey with hcurrent | hcurrent
        · exact .inr (.inl hcurrent)
        · exact .inr (.inr (by rw [hcurrent]))
      · rw [hstate]
        rcases hi.held hs next hnext with hsame | ⟨hnone, _⟩
        · rw [hpending] at hsame
          exact .inr ⟨rfl, Option.some.inj hsame⟩
        · rw [hpending] at hnone
          cases hnone

/-- **A reconnect that gives up the Server's current key** loses it. -/
theorem keepsCurrent_of_known (h : (w.step digest act).Known) : w.KeepsCurrent digest act := by
  cases act with
  | reconnect =>
    intro key hkey
    rcases reconnect_cases digest w with ⟨hnone, _⟩ | ⟨key', pinned, hkey', _, hstate, hr⟩
    · rw [hnone] at hkey
      cases hkey
    · obtain rfl : key' = key := Option.some.inj (hkey'.symm.trans hkey)
      rw [Exchange.step, hr] at h
      have h : w.ring.state.current.publicKey ∈ pinned.connectionCandidates := h
      rw [mem_candidates, hstate] at h
      rcases h with h | h | h
      · cases h
      · exact .inl h
      · exact .inr (Option.some.inj h).symm
  | prepare | promote | cancel | retire | announce | deliver => exact trivial

/-- **No lock-out, exactly**: in every run in which the Server promotes only what the Agent has
    staged, its current key is always a candidate of the Agent if and only if no reconnect promotes
    a pending key while the Server's current key is only the Agent's previous one. -/
theorem current_key_known_iff (digest : NoisePublicKey → KeyId) (ring : ServerKeyRing)
    (acts : List Act) (h : Along (Exchange.step digest) PromotesStaged (start ring) acts) :
    Throughout (Exchange.step digest) Known (start ring) acts ↔
      Along (Exchange.step digest) (KeepsCurrent digest) (start ring) acts :=
  throughout_iff_along_of (fun _ _ hi hp hk => Tracked.step hi hp hk) (fun _ hi => hi.known)
    (fun _ _ _ _ hk => keepsCurrent_of_known hk) (start_tracked ring) h

/-- A cancelled rotation the Agent had connected with, and a reconnect. -/
theorem current_key_known_after_cancel :
    Throughout (Exchange.step id) Known (start (.new (identityOf 0)))
      [prepareOf 1, .announce, .deliver false, .reconnect, .cancel, .reconnect, prepareOf 2] :=
  (current_key_known_iff id (.new (identityOf 0)) _ (by decide +kernel)).mpr (by decide +kernel)

/-- **A lock-out**: the Agent connects with the next key of two rotations that are then cancelled;
    the Server's current key is no candidate any more. -/
theorem two_cancelled_rotations_lock_out :
    Along (Exchange.step id) PromotesStaged (start (.new (identityOf 0)))
        [prepareOf 1, .announce, .deliver false, .reconnect, .cancel,
          prepareOf 2, .announce, .deliver false, .reconnect, .cancel] ∧
      ¬ Throughout (Exchange.step id) Known (start (.new (identityOf 0)))
        [prepareOf 1, .announce, .deliver false, .reconnect, .cancel,
          prepareOf 2, .announce, .deliver false, .reconnect, .cancel] := by
  refine ⟨by decide +kernel, fun h => ?_⟩
  exact absurd (h _ (prefix_refl _)) (by decide +kernel)

end Exchange

end Smalux.Rotation
