/-
  Subject:   The bounded outboxes of the Agent (outbox.rs): what is sent, kept and dropped.

  The Task report, Job result and Job event outboxes share one algorithm; `Kind` says in what they
  differ. A send is answered by the session with success, a retryable or a fatal error.

  * `push`, `submitWith`, `flushWith` -- the code;
  * `Ledger` -- an outbox with the history of its calls: submitted, sent, evicted, failed;
  * **`outbox_conserves`** -- in every state of every run nothing is lost but the oldest entries of
    a full queue and the items whose direct send failed fatally, the order is kept, and the queue
    is bounded.

  NOT here: the connection. How a send ends is the environment's choice, call by call.
-/
import Smalux.Protocol.Noise
import Smalux.Lib.Run
import Mathlib.Algebra.Order.Group.Multiset

namespace Smalux.Agent

open Lib Protocol List Multiset

/-- What the outboxes ask of a `SmaluxClientError`. -/
structure SmaluxClientError where
  isRetryable : Bool
  deriving DecidableEq, Repr

abbrev SendResult := Except SmaluxClientError Unit

/-- `JobResultBufferStats` and `JobEventBufferStats`. -/
structure BufferStats where
  pending : Nat := 0
  dropped : Nat := 0
  deriving DecidableEq, Repr

structure Outbox (α σ : Type) where
  pending : List α
  capacity : Nat
  dropped : Nat
  stats : σ
  deriving DecidableEq, Repr

/-- In what the outboxes differ: the text of `new`'s refusal, and `stats.update`. -/
structure Outbox.Kind (σ : Type) where
  refusal : String
  update : σ → Nat → Nat → σ

namespace Outbox

/-- `TaskReportOutbox` keeps no statistics. -/
def taskReports : Kind Unit :=
  ⟨"Task report outbox capacity must be greater than zero", fun stats _ _ => stats⟩

def jobResults : Kind BufferStats :=
  ⟨"Job result outbox capacity must be greater than zero", fun _ pending dropped =>
    ⟨pending, dropped⟩⟩

def jobEvents : Kind BufferStats :=
  ⟨"Job event outbox capacity must be greater than zero", fun _ pending dropped =>
    ⟨pending, dropped⟩⟩

section Code

variable {α σ : Type} (kind : Kind σ)

def new (capacity : Nat) (stats : σ) : Except String (Outbox α σ) :=
  if 0 < capacity then .ok { pending := [], capacity, dropped := 0, stats }
  else .error kind.refusal

/-- The oldest entry makes room in a full queue. -/
def makeRoom (o : Outbox α σ) : Outbox α σ :=
  if o.pending.length = o.capacity then
    { o with pending := o.pending.tail, dropped := saturatingSucc o.dropped }
  else o

def push (o : Outbox α σ) (item : α) : Outbox α σ :=
  let o := o.makeRoom
  let pending := o.pending ++ [item]
  { o with pending, stats := kind.update o.stats pending.length o.dropped }

/-- `submit_with`; the last component is what reached the session. -/
def submitWith (o : Outbox α σ) (item : α) (send : SendResult) :
    Outbox α σ × SendResult × List α :=
  if o.pending.isEmpty then
    match send with
    | .ok () => (o, .ok (), [item])
    | .error e => if e.isRetryable then (o.push kind item, .ok (), []) else (o, .error e, [])
  else (o.push kind item, .ok (), [])

/-- The loop of `flush_with` over what is pending: `send n` answers its `n`-th send. -/
def flushLoop (send : Nat → SendResult) : Nat → List α → Outbox α σ →
    Outbox α σ × SendResult × List α
  | _, [], o => (o, .ok (), [])
  | n, item :: rest, o =>
    match send n with
    | .ok () =>
      let (o, result, sent) := flushLoop send (n + 1) rest
        { o with pending := rest, stats := kind.update o.stats rest.length o.dropped }
      (o, result, item :: sent)
    | .error e => (o, if e.isRetryable then .ok () else .error e, [])

def flushWith (o : Outbox α σ) (send : Nat → SendResult) : Outbox α σ × SendResult × List α :=
  o.flushLoop kind send 0 o.pending

/-- A flush moves a beginning of what is pending to the session, and changes nothing else. -/
theorem flushLoop_spec (send : Nat → SendResult) : ∀ (n : Nat) (pending : List α)
    (o : Outbox α σ), o.pending = pending → let r := o.flushLoop kind send n pending
      r.2.2 ++ r.1.pending = pending ∧ r.1.capacity = o.capacity ∧ r.1.dropped = o.dropped
  | _, [], _, h => ⟨h, rfl, rfl⟩
  | n, item :: rest, o, h => by
    unfold flushLoop
    cases send n with
    | error => exact ⟨h, rfl, rfl⟩
    | ok =>
      obtain ⟨hsplit, hcapacity, hdropped⟩ := flushLoop_spec send (n + 1) rest
        { o with pending := rest, stats := kind.update o.stats rest.length o.dropped } rfl
      exact ⟨congrArg (item :: ·) hsplit, hcapacity, hdropped⟩

end Code

end Outbox

/-! ## 1. The history of an outbox -/

inductive Call (α : Type) where
  | submit (item : α) (send : SendResult)
  | flush (send : Nat → SendResult)

/-- An outbox and what became of the items submitted to it: `evicted` holds, for each submission to
    a full queue, its oldest entry, and `failed` the items `submit_with` answered with an error. -/
structure Ledger (α σ : Type) where
  outbox : Outbox α σ
  submitted : List α := []
  sent : List α := []
  evicted : List α := []
  failed : List α := []

namespace Ledger

variable {α σ : Type} (kind : Outbox.Kind σ)

def step (l : Ledger α σ) : Call α → Ledger α σ
  | .submit item send =>
    let (outbox, result, sent) := l.outbox.submitWith kind item send
    { outbox
      submitted := l.submitted ++ [item]
      sent := l.sent ++ sent
      evicted := l.evicted ++
        if l.outbox.pending.length = l.outbox.capacity then l.outbox.pending.take 1 else []
      failed := l.failed ++ if result = .ok () then [] else [item] }
  | .flush send =>
    let (outbox, _, sent) := l.outbox.flushWith kind send
    { l with outbox, sent := l.sent ++ sent }

/-- **Nothing is lost unnoticed.** -/
structure Conserved (l : Ledger α σ) : Prop where
  /-- What was sent and what is pending, in the order of submission, each item once. -/
  order : (l.sent ++ l.outbox.pending).Sublist l.submitted
  /-- The items missing there are those evicted and those that failed. -/
  account : (l.sent + l.outbox.pending + (l.evicted + l.failed) : Multiset α) = l.submitted
  /-- The counter saturates at `u64::MAX`. -/
  counted : l.outbox.dropped = min l.evicted.length (2 ^ 64 - 1)
  bounded : l.outbox.pending.length ≤ l.outbox.capacity
  room : 0 < l.outbox.capacity

variable {l : Ledger α σ}

theorem Conserved.push (h : l.Conserved) (item : α) : Conserved { l with
      outbox := l.outbox.push kind item
      submitted := l.submitted ++ [item]
      evicted := l.evicted ++
        if l.outbox.pending.length = l.outbox.capacity then l.outbox.pending.take 1 else [] } := by
  obtain ⟨horder, haccount, hcounted, hbounded, hroom⟩ := h
  by_cases hfull : l.outbox.pending.length = l.outbox.capacity
  · -- The queue is not empty, as its capacity is positive: its head goes.
    obtain ⟨oldest, rest, hpending⟩ : ∃ oldest rest, l.outbox.pending = oldest :: rest :=
      exists_cons_of_length_pos (by omega)
    have hrest : (l.sent ++ rest).Sublist l.submitted :=
      (((sublist_cons_self oldest rest).append_left l.sent).trans (hpending ▸ horder))
    simp only [hpending] at hfull haccount
    constructor <;> simp only [Outbox.push, Outbox.makeRoom, hpending, hfull, if_true,
      tail_cons, take_succ_cons, take_zero]
    · simpa using hrest.append_right [item]
    · rw [← coe_add, ← coe_add, ← coe_add, ← haccount,
        ← cons_coe oldest rest, ← singleton_add, coe_singleton oldest]
      ac_rfl
    · rw [hcounted, saturatingSucc, length_append, length_singleton]
      omega
    · simp at hfull ⊢
      omega
    · exact hroom
  · constructor <;> simp only [Outbox.push, Outbox.makeRoom, hfull, if_false, append_nil]
    · simpa using horder.append_right [item]
    · rw [← coe_add, ← coe_add, ← haccount]
      ac_rfl
    · exact hcounted
    · simp
      omega
    · exact hroom

theorem Conserved.step (h : l.Conserved) (call : Call α) : (l.step kind call).Conserved := by
  have hpushed := h.push kind
  obtain ⟨horder, haccount, hcounted, hbounded, hroom⟩ := h
  cases call with
  | flush send =>
    obtain ⟨hsplit, hcapacity, hdropped⟩ :=
      Outbox.flushLoop_spec kind send 0 l.outbox.pending l.outbox rfl
    rw [← hsplit] at horder haccount hbounded
    constructor <;> simp only [Ledger.step, Outbox.flushWith, hcapacity, hdropped]
    · simpa using horder
    · rw [← haccount, ← coe_add, ← coe_add]
      ac_rfl
    · exact hcounted
    · exact (length_append ▸ Nat.le_add_left _ _).trans hbounded
    · exact hroom
  | submit item send =>
    by_cases hempty : l.outbox.pending = []
    · match send with
      | .error ⟨true⟩ => simpa [Ledger.step, Outbox.submitWith, hempty] using hpushed item
      | .ok () =>
        have hl : l.step kind (.submit item (.ok ())) =
            { l with submitted := l.submitted ++ [item], sent := l.sent ++ [item] } := by
          simp [Ledger.step, Outbox.submitWith, hempty]
        rw [hl]
        refine ⟨by simpa [hempty] using horder, ?_, hcounted, hbounded, hroom⟩
        dsimp only
        rw [← coe_add, ← coe_add, ← haccount]
        ac_rfl
      | .error ⟨false⟩ =>
        have hl : l.step kind (.submit item (.error ⟨false⟩)) =
            { l with submitted := l.submitted ++ [item], failed := l.failed ++ [item] } := by
          simp [Ledger.step, Outbox.submitWith, hempty]
        rw [hl]
        refine ⟨horder.trans (sublist_append_left _ _), ?_, hcounted, hbounded, hroom⟩
        dsimp only
        rw [← coe_add, ← coe_add, ← haccount]
        ac_rfl
    · simpa [Ledger.step, Outbox.submitWith, hempty] using hpushed item

/-- **Outbox conservation**: in every state of every run of calls, whatever the sends answer, the
    items sent and then those pending are a subsequence of the submissions; missing are the evicted
    ones, counted in `dropped` as far as the counter goes, and those that failed. -/
theorem outbox_conserves (capacity : Nat) (stats : σ) (o : Outbox α σ)
    (hnew : Outbox.new kind capacity stats = .ok o) (calls : List (Call α)) :
    Throughout (Ledger.step kind) Conserved { outbox := o } calls := by
  refine throughout_of_invariant (fun _ call h _ => h.step kind call) (fun _ h => h) ?_
    (along_trivial calls _)
  unfold Outbox.new at hnew
  split at hnew
  · rename_i hroom
    cases hnew
    exact ⟨.slnil, rfl, rfl, Nat.zero_le _, hroom⟩
  · cases hnew

/-- Three Task reports for two places while the connection is down, and a flush that ends early. -/
theorem three_reports_conserved : Throughout (Ledger.step Outbox.taskReports) Conserved
      { outbox := { pending := [], capacity := 2, dropped := 0, stats := () } }
      [.submit 1 (.error ⟨true⟩), .submit 2 (.ok ()), .submit 3 (.ok ()),
        .flush fun n => if n = 0 then .ok () else .error ⟨false⟩] :=
  outbox_conserves Outbox.taskReports 2 () _ rfl _

/-- `n + 1` submissions to one place while the connection is down. -/
def disconnected (n : Nat) : Ledger Unit Unit :=
  run (Ledger.step Outbox.taskReports)
    { outbox := { pending := [], capacity := 1, dropped := 0, stats := () } }
    (.replicate (n + 1) (.submit () (.error ⟨true⟩)))

theorem disconnected_eq (n : Nat) : disconnected n =
    { outbox := { pending := [()], capacity := 1, dropped := min n (2 ^ 64 - 1), stats := () }
      submitted := .replicate (n + 1) (), evicted := .replicate n () } := by
  induction n with
  | zero => rfl
  | succ n ih =>
    rw [disconnected, replicate_succ', run_append, ← disconnected, ih]
    simp [Ledger.step, Outbox.submitWith, Outbox.push, Outbox.makeRoom, Outbox.taskReports,
      ← replicate_succ', saturatingSucc]
    omega

/-- **The counter ends at `u64::MAX`**: one more report is dropped, and `dropped` does not say so. -/
theorem dropped_saturates :
    (disconnected (2 ^ 64)).submitted.length ≠ (disconnected (2 ^ 64)).sent.length +
      (disconnected (2 ^ 64)).outbox.pending.length + (disconnected (2 ^ 64)).outbox.dropped +
      (disconnected (2 ^ 64)).failed.length := by
  simp only [disconnected_eq, length_replicate, length_nil, length_singleton]
  omega

end Ledger

end Smalux.Agent
