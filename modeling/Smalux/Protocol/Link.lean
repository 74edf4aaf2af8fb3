/-
  Subject:   The two ends of a session, joined by a lossless first-in first-out channel each way.

  What one party has handed over and the other has not read is on its way. A step of the link is a
  step of one party: something happens to it, or it reads the oldest frame on its way to it.

  * `Link.step` -- the steps;
  * `Placed` -- only an initiator waits for an acknowledgement;
  * `Holds.step` -- how facts about each party alone become facts about the link.
-/
import Smalux.Protocol.Effects
import Smalux.Lib.Run

namespace Smalux.Protocol

open Lib List

/-! ## 1. The link -/

structure Link (β B : Type) where
  initiator : Party β B
  responder : Party β B

/-- What can happen on a link. -/
inductive LinkAct (β : Type) where
  | wake (role : NoiseSessionRole) (now : Now) (w : Wake β)
  /-- the party reads the oldest frame on its way -/
  | deliver (role : NoiseSessionRole) (now : Now)

def NoiseSessionRole.peer : NoiseSessionRole → NoiseSessionRole
  | .initiator => .responder
  | .responder => .initiator

namespace Link

variable {β B : Type}

variable (link : Link β B)

def party : NoiseSessionRole → Party β B
  | .initiator => link.initiator
  | .responder => link.responder

def set (role : NoiseSessionRole) (p : Party β B) : Link β B :=
  match role with
  | .initiator => { link with initiator := p }
  | .responder => { link with responder := p }

/-- The frames on their way to a party. -/
def unread (role : NoiseSessionRole) : List (ProtocolFrame B) :=
  (link.party role.peer).handed.drop (link.party role).consumed

def step (prost : Prost (SecureMessage β) B) (link : Link β B) : LinkAct β → Link β B
  | .wake role now w => link.set role ((link.party role).wake prost now w)
  | .deliver role now =>
    match link.unread role with
    | frame :: _ => link.set role ((link.party role).accept prost now frame)
    | [] => link

theorem set_party (role : NoiseSessionRole) : link.set role (link.party role) = link := by
  cases role <;> rfl

@[simp] theorem party_set_self (role : NoiseSessionRole) (p : Party β B) :
    (link.set role p).party role = p := by
  cases role <;> rfl

@[simp] theorem party_set_peer (role : NoiseSessionRole) (p : Party β B) :
    (link.set role p).party role.peer = link.party role.peer := by
  cases role <;> rfl

end Link

/-- A session as the handshake leaves it. -/
def Party.fresh {β B : Type} (role : NoiseSessionRole) (now : Now) : Party β B :=
  { session :=
      { secure := { transport := ⟨⟨0, 0⟩, ⟨0, 0⟩⟩ }, role, establishedAt := now.instant
        lastReceived := now.instant } }

def Link.fresh {β B : Type} (now : Now) : Link β B :=
  ⟨.fresh .initiator now, .fresh .responder now⟩

/-! ## 2. What every step keeps -/

section Steps

variable {β B : Type} {prost : Prost (SecureMessage β) B} {next : Next} {role : NoiseSessionRole}
  {frame : ProtocolFrame B} {p p' : Party β B} {loop : Bool} {w : Wake β}

/-- The frame that waits for room in the channel. -/
def Pc.inHand : Pc β B → List (ProtocolFrame B)
  | .sending frame _ => [frame]
  | _ => []

def Pc.live : Pc β B → Bool
  | .stopped _ => false
  | _ => true

theorem ReadsAt.live (h : ReadsAt p next) : p.pc.live = true := by
  cases h with
  | receive hi | driver hi =>
    rw [hi]
    rfl

theorem live_of_reads (h : p.reads = true) : p.pc.live = true := by
  unfold Party.reads at h
  split at h
  · rename_i hi
    rw [hi]
    rfl
  · rename_i hi
    rw [hi]
    rfl
  · rename_i hi
    rw [hi]
    rfl
  · cases h

/-- The party waits for an acknowledgement, or has the request for one in hand. -/
def Pc.inRequest : Pc β B → Bool
  | .sending _ (.rekeyWait _ _) => true
  | .rekeyWait _ _ => true
  | _ => false

/-- A party keeps its role, and only an initiator waits for an acknowledgement. -/
structure Placed (role : NoiseSessionRole) (p : Party β B) : Prop where
  role : p.session.role = role
  request : p.pc.inRequest = true → p.session.role = .initiator

theorem Continues.placed (h : Continues prost p loop p') (hr : p.session.role = role) :
    Placed role p' := by
  cases h with
  | rests hk | waits hk | stops hk | returns _ hk | publishes _ _ hk =>
    exact ⟨hk.role.trans hr, nofun⟩
  | seals hk hn hl ho =>
    refine ⟨hk.role.trans hr, fun h => ?_⟩
    cases ho with
    | ping => cases h
    | request hi => exact hk.role.trans hi

theorem Resumes.placed (h : Resumes prost p next p') (hr : p.session.role = role) : Placed role p' := by
  cases h with
  | done => exact ⟨hr, nofun⟩
  | on hn hl h => exact h.placed hr

theorem Woken.placed (h : Woken prost p w p') (hp : Placed role p) : Placed role p' := by
  cases h with
  | same => exact hp
  | stops | abandons | sends => exact ⟨hp.role, nofun⟩
  | tunes hi hk => exact ⟨hk.role.trans hp.role, fun h => hk.role.trans (hp.request h)⟩
  | drives => exact ⟨hp.role, hp.request⟩
  | starts hi hl h | probes hi h | hands hi h => exact h.placed hp.role
  | tells hi hk => exact ⟨hk.role.trans hp.role, nofun⟩
  | handsRequest hi => exact ⟨hp.role, fun _ => hp.request (by rw [hi]; rfl)⟩
  | handsAck hi hr h => exact h.placed (hr.role.trans hp.role)
  | taken hi h =>
    rcases h with ⟨hk, e, rfl⟩ | ⟨hk, -, rfl⟩ | ⟨_, hk, rfl⟩ <;>
      exact ⟨hk.role.trans hp.role, nofun⟩

theorem Accepted.placed (h : Accepted prost p frame p') (hp : Placed role p) : Placed role p' := by
  cases h with
  | refused h hr | stops h hc hr => exact ⟨hr.trans hp.role, nofun⟩
  | abandons hi hd h hr | returned hi h hc hr | published hi hd h hc hr | ponged hi h hr
  | switched hi h hrole hg hr =>
    exact ⟨hr.role.trans hp.role, nofun⟩
  | buffered hi h hc hr | ignored hi h hs hr | crossed hi h hr =>
    exact ⟨hr.role.trans hp.role, fun _ => hr.role.trans (hp.request (by rw [hi]; rfl))⟩
  | handled hi h hs hr hres | acknowledged hi h hr hres =>
    exact hres.placed (hr.role.trans hp.role)

/-- The logs of the channel that running on leaves alone. -/
theorem Continues.channel (h : Continues prost p loop p') :
    p'.handed = p.handed ∧ p'.consumed = p.consumed := by
  cases h <;> exact ⟨rfl, rfl⟩

theorem Resumes.channel (h : Resumes prost p next p') :
    p'.handed = p.handed ∧ p'.consumed = p.consumed := by
  cases h with
  | done => exact ⟨rfl, rfl⟩
  | on hn hl h => exact h.channel

/-- Without a frame nothing is read, and what has been handed over stays. -/
theorem Woken.channel (h : Woken prost p w p') :
    p.handed <+: p'.handed ∧ p'.consumed = p.consumed := by
  cases h with
  | starts hi hl h | probes hi h => exact ⟨h.channel.1 ▸ prefix_refl _, h.channel.2⟩
  | hands hi h | handsAck hi hr h => exact ⟨h.channel.1 ▸ prefix_append _ _, h.channel.2⟩
  | handsRequest => exact ⟨prefix_append _ _, rfl⟩
  | _ => exact ⟨prefix_refl _, rfl⟩

/-- Reading a frame hands nothing over. -/
theorem Accepted.channel (h : Accepted prost p frame p') :
    p'.handed = p.handed ∧ p'.consumed = p.consumed + 1 := by
  cases h with
  | handled hi h hs hr hres | acknowledged hi h hr hres => exact hres.channel
  | _ => exact ⟨rfl, rfl⟩

/-! ## 3. Facts about each party, along a run of the link -/

/-- The frames a party has read. -/
def Link.inbox (link : Link β B) (role : NoiseSessionRole) : List (ProtocolFrame B) :=
  (link.party role.peer).handed.take (link.party role).consumed

/-- A fact `I` about each party and the frames it has read. -/
structure Holds (I : Party β B → List (ProtocolFrame B) → Prop) (link : Link β B) : Prop where
  placed : ∀ role, Placed role (link.party role)
  behind : ∀ role, (link.party role).consumed ≤ (link.party role.peer).handed.length
  holds : ∀ role, I (link.party role) (link.inbox role)

theorem peer_peer (role : NoiseSessionRole) : role.peer.peer = role := by cases role <;> rfl

theorem eq_or_eq_peer (role side : NoiseSessionRole) : side = role ∨ side = role.peer := by
  cases role <;> cases side <;> simp [NoiseSessionRole.peer]

variable {I : Party β B → List (ProtocolFrame B) → Prop}

/-- One party has changed; it may have handed frames over, and has read those up to `inbox`. -/
theorem Holds.set {link : Link β B} (h : Holds I link) (hp : Placed role p)
    (hh : (link.party role).handed <+: p.handed)
    (hc : p.consumed ≤ (link.party role.peer).handed.length)
    (hi : I p ((link.party role.peer).handed.take p.consumed)) : Holds I (link.set role p) := by
  have hother : (link.party role.peer).consumed ≤ (link.party role).handed.length := by
    have := h.behind role.peer
    rwa [peer_peer] at this
  refine ⟨fun side => ?_, fun side => ?_, fun side => ?_⟩
  · rcases eq_or_eq_peer role side with rfl | rfl
    · simpa using hp
    · simpa using h.placed role.peer
  · rcases eq_or_eq_peer role side with rfl | rfl
    · simpa using hc
    · rw [peer_peer]
      simpa using Nat.le_trans hother hh.length_le
  · rcases eq_or_eq_peer role side with rfl | rfl
    · simpa [Link.inbox] using hi
    · have hold := h.holds role.peer
      unfold Link.inbox at hold ⊢
      rw [peer_peer] at hold ⊢
      obtain ⟨more, hmore⟩ := hh
      simp only [Link.party_set_self, Link.party_set_peer]
      rw [← hmore, take_append_of_le_length hother]
      exact hold

theorem take_succ_of_drop {α : Type} {l rest : List α} {n : Nat} {x : α}
    (h : l.drop n = x :: rest) : l.take (n + 1) = l.take n ++ [x] := by
  have hx : l[n]? = some x := by
    have := congrArg List.head? h
    simpa [List.head?_drop] using this
  rw [take_add_one, hx]
  rfl

theorem accept_of_not_reads (now : Now) (h : ¬ p.reads = true) : p.accept prost now frame = p := by
  unfold Party.reads at h
  unfold Party.accept
  cases hi : p.pc with
  | idle =>
    rw [hi] at h
    exact if_neg h
  | receiving | rekeyWait => exact absurd (by rw [hi]) h
  | sending | publishing | stopped => rfl

/-- **The rule for a step of the link**: what happens to a party keeps `I`, and so does reading
    the frame that is next. -/
theorem Holds.step {link : Link β B} (h : Holds I link) (act : LinkAct β)
    (hwake : ∀ role now w, act = .wake role now w → ∀ p', Woken prost (link.party role) w p' →
      I p' (link.inbox role))
    (haccept : ∀ role now frame rest, act = .deliver role now → link.unread role = frame :: rest →
      ∀ p', Accepted prost (link.party role) frame p' → I p' (link.inbox role ++ [frame])) :
    Holds I (link.step prost act) := by
  cases act with
  | wake role now w =>
    have hw : Woken prost (link.party role) w _ := wake_cases (link.party role) now w
    have hchannel := hw.channel
    refine h.set (hw.placed (h.placed role)) hchannel.1 ?_ ?_
    · rw [hchannel.2]
      exact h.behind role
    · rw [hchannel.2]
      exact hwake role now w rfl _ hw
  | deliver role now =>
    cases hu : link.unread role with
    | nil =>
      dsimp only [Link.step]
      rw [hu]
      exact h
    | cons frame rest =>
      dsimp only [Link.step]
      rw [hu]
      by_cases hreads : (link.party role).reads = true
      · have hrole : ∀ generation next, (link.party role).pc = .rekeyWait generation next →
            (link.party role).session.role = .initiator := by
          intro generation next hi
          exact (h.placed role).request (by rw [hi]; rfl)
        have ha : Accepted prost (link.party role) frame _ :=
          accept_cases (link.party role) now hreads hrole
        have hchannel := ha.channel
        have hbehind : (link.party role).consumed + 1 ≤
            (link.party role.peer).handed.length := by
          have := congrArg List.length hu
          simp only [Link.unread, length_drop, length_cons] at this
          omega
        refine h.set (ha.placed (h.placed role)) (hchannel.1 ▸ prefix_refl _) ?_ ?_
        · rw [hchannel.2]
          exact hbehind
        · rw [hchannel.2, take_succ_of_drop hu]
          exact haccept role now frame rest rfl hu _ ha
      · dsimp only
        rw [accept_of_not_reads now hreads]
        exact h.set (h.placed role) (prefix_refl _) (h.behind role) (h.holds role)

end Steps

end Smalux.Protocol
