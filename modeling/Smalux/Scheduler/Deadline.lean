/-
  Subject:   From wall-clock times to deadlines of the monotonic clock (timing.rs).

  An `Instant` may not reach as far as a time that is asked for. Then the last whole second that can
  be represented is found by bisection. The variables of the loop are `u64`: `none` stands for an
  operation that leaves their range, and for a loop that is not over when the fuel is.

  * `MonotonicClock` -- the clock of the platform;
  * **`deadline_saturates`** -- the loop ends within 64 rounds, at the last second there is, and no
    deadline is later than the time asked for.
-/
import Smalux.Scheduler.Timing

namespace Smalux.Scheduler

/-- `Instant::checked_add`: what can be added is unknown, but with a duration all shorter ones can. -/
structure MonotonicClock (Instant : Type) where
  checkedAdd : Instant → Duration → Option Instant
  closed : ∀ {now} {d d' : Nat}, d' ≤ d → (checkedAdd now d).isSome → (checkedAdd now d').isSome

/-- `+` and `-` of `u64`. -/
def addU64 (a b : Nat) : Option Nat := if a + b ≤ u64Max then some (a + b) else none

def subU64 (a b : Nat) : Option Nat := if b ≤ a then some (a - b) else none

/-- The loop of `latest_supported_instant`. -/
def bisect (supported : Nat → Bool) : Nat → Nat → Nat → Option Nat
  | 0, lower, upper => if lower < upper then none else some lower
  | fuel + 1, lower, upper =>
    if lower < upper then do
      let width ← subU64 upper lower
      -- `div_ceil(2)`
      let middle ← addU64 lower (width / 2 + width % 2)
      if supported middle then bisect supported fuel middle upper
      else
        let below ← subU64 middle 1
        bisect supported fuel lower below
    else some lower

section Clock

variable {Instant : Type} (clock : MonotonicClock Instant) (now : Instant)

namespace MonotonicClock

/-- `Duration::from_secs(n)` can be added. -/
def supports (n : Nat) : Bool := (clock.checkedAdd now (n * 10 ^ 9)).isSome

def latestSupportedInstant (fuel : Nat) (requested : Duration) : Option Instant := do
  let lower ← bisect (clock.supports now) fuel 0 (requested / 10 ^ 9)
  return (clock.checkedAdd now (lower * 10 ^ 9)).getD now

/-- `to_instant`, with the two clocks read. A time in the past is due at once. -/
def toInstant (fuel : Nat) (utcNow runAt : DateTime) : Option Instant :=
  match clock.checkedAdd now (runAt - utcNow).toNat with
  | some instant => some instant
  | none => clock.latestSupportedInstant now fuel (runAt - utcNow).toNat

/-- Of so many seconds, `n` are the most that can be added. -/
structure Latest (secs n : Nat) : Prop where
  within : n ≤ secs
  supported : n = 0 ∨ clock.supports now n = true
  most : ∀ m ≤ secs, clock.supports now m = true → m ≤ n

end MonotonicClock

variable {clock now}

/-- The lower end can be added, nothing beyond the upper end can, and a round leaves half of the
    width. -/
theorem bisect_latest (secs : Nat) (hsecs : secs ≤ u64Max) : ∀ {fuel lower upper : Nat},
    lower ≤ upper → upper - lower < 2 ^ fuel → upper ≤ secs →
      (lower = 0 ∨ clock.supports now lower = true) →
      (∀ m ≤ secs, clock.supports now m = true → m ≤ upper) →
      ∃ n, bisect (clock.supports now) fuel lower upper = some n ∧ clock.Latest now secs n
  | 0, lower, upper, hle, hwidth, htop, hlower, hupper => by
    rw [Nat.pow_zero] at hwidth
    obtain rfl : lower = upper := by omega
    exact ⟨lower, if_neg (Nat.lt_irrefl _), htop, hlower, hupper⟩
  | fuel + 1, lower, upper, hle, hwidth, htop, hlower, hupper => by
    by_cases hlt : lower < upper
    · rw [Nat.pow_succ] at hwidth
      generalize hmiddle : lower + ((upper - lower) / 2 + (upper - lower) % 2) = middle
      have hround : bisect (clock.supports now) (fuel + 1) lower upper =
          if clock.supports now middle then bisect (clock.supports now) fuel middle upper
          else bisect (clock.supports now) fuel lower (middle - 1) := by
        have hadd : addU64 lower ((upper - lower) / 2 + (upper - lower) % 2) = some middle := by
          rw [addU64, if_pos (by omega), hmiddle]
        have hbelow : subU64 middle 1 = some (middle - 1) := if_pos (by omega)
        rw [bisect, if_pos hlt, subU64, if_pos hle]
        simp [hadd, hbelow]
      rw [hround]
      cases hok : clock.supports now middle with
      | true => exact bisect_latest secs hsecs (by omega) (by omega) htop (.inr hok) hupper
      | false =>
        refine bisect_latest secs hsecs (by omega) (by omega) (by omega) hlower fun m _ hm => ?_
        -- with what lies above it, the middle could be added
        by_contra hge
        have hle' : middle * 10 ^ 9 ≤ m * 10 ^ 9 := Nat.mul_le_mul_right _ (by omega)
        exact Bool.false_ne_true (hok.symm.trans (clock.closed hle' hm))
    · obtain rfl : lower = upper := by omega
      exact ⟨lower, if_neg hlt, htop, hlower, hupper⟩

/-- **Deadlines saturate.** The search ends without leaving the range of `u64`, at the last second
    there is; and every time becomes a deadline, which lies no further ahead. -/
theorem deadline_saturates {fuel : Nat} (hfuel : 64 ≤ fuel) :
    (∀ requested : Duration, requested / 10 ^ 9 ≤ u64Max →
      ∃ n, clock.Latest now (requested / 10 ^ 9) n ∧
        clock.latestSupportedInstant now fuel requested =
          some ((clock.checkedAdd now (n * 10 ^ 9)).getD now)) ∧
    ∀ utcNow runAt : DateTime, utcNow.inRange = true → runAt.inRange = true →
      ∃ d ≤ (runAt - utcNow).toNat,
        clock.toInstant now fuel utcNow runAt = some ((clock.checkedAdd now d).getD now) := by
  have hlatest : ∀ requested : Duration, requested / 10 ^ 9 ≤ u64Max →
      ∃ n, clock.Latest now (requested / 10 ^ 9) n ∧
        clock.latestSupportedInstant now fuel requested =
          some ((clock.checkedAdd now (n * 10 ^ 9)).getD now) := by
    intro requested hsecs
    have hwidth : requested / 10 ^ 9 - 0 < 2 ^ fuel :=
      Nat.lt_of_lt_of_le (Nat.lt_succ_of_le hsecs) (Nat.pow_le_pow_right Nat.two_pos hfuel)
    obtain ⟨n, hn, hmost⟩ := bisect_latest _ hsecs (Nat.zero_le _) hwidth (Nat.le_refl _) (.inl rfl)
      fun _ hm _ => hm
    refine ⟨n, hmost, ?_⟩
    rw [MonotonicClock.latestSupportedInstant, hn]
    rfl
  refine ⟨hlatest, fun utcNow runAt hutc hrun => ?_⟩
  unfold MonotonicClock.toInstant
  generalize hdelay : (runAt - utcNow).toNat = delay
  cases hadd : clock.checkedAdd now delay with
  | some => exact ⟨delay, Nat.le_refl _, by rw [hadd]; rfl⟩
  | none =>
    have hutc : (-8334601228800 * 10 ^ 9 : Int) ≤ utcNow := (of_decide_eq_true hutc).1
    have hrun : (8210266876799 * 10 ^ 9 + 999999999 : Int) ≥ runAt := (of_decide_eq_true hrun).2
    have hsecs : delay / 10 ^ 9 ≤ u64Max := by
      unfold u64Max
      omega
    obtain ⟨n, hmost, heq⟩ := hlatest delay hsecs
    have hle := hmost.within
    exact ⟨n * 10 ^ 9, by omega, heq⟩

end Clock

/-- A clock that ends half a second after its thousandth second. -/
def shortClock : MonotonicClock Nat where
  checkedAdd := fun now d => if now + d ≤ 1000500000000 then some (now + d) else none
  closed := by
    intro now d d' hle h
    by_cases hd : now + d ≤ 1000500000000
    · rw [if_pos (by omega)]
      rfl
    · rw [if_neg hd] at h
      cases h

/-- The longest `Duration` there is. -/
theorem shortClock_saturates :
    shortClock.latestSupportedInstant 0 64 (u64Max * 10 ^ 9 + 999999999) = some (1000 * 10 ^ 9) ∧
      ∃ n, shortClock.Latest 0 ((u64Max * 10 ^ 9 + 999999999) / 10 ^ 9) n := by
  obtain ⟨n, hmost, -⟩ := (@deadline_saturates _ shortClock 0 64 (Nat.le_refl 64)).1
    (u64Max * 10 ^ 9 + 999999999) (by decide)
  exact ⟨by decide +kernel, n, hmost⟩

end Smalux.Scheduler
