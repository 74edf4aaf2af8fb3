/-
  Subject:   Which occurrences of an interval a late timer produces (timing.rs).

  The code walks from one occurrence to the next, as far as catch-up may go, and leaves for the
  first one in the future with one division. Both agree with the grid `s, s + every, …` of the
  planned time `s`:

  * `grid` -- the occurrences of an interval, and `isLeast_add` -- the one that comes next;
  * `catchUpLoop_spec`, `nextFutureOccurrence_spec` -- the loop and the division;
  * **`misfire_arithmetic`** -- what `due_occurrences` answers.
-/
import Mathlib
import Smalux.Scheduler.Occurrences

namespace Smalux.Scheduler

open List

variable {cr : Croner} {every : Duration} {startAt : Option DateTime} {s t now : Int}
  {next : Option DateTime}

/-- The occurrences of an interval from `s` on. -/
def grid (s : Int) (every : Duration) : Set Int :=
  Set.range fun k : Nat => s + k * every

theorem add_mem_grid (h : t ∈ grid s every) : t + every ∈ grid s every := by
  obtain ⟨k, rfl⟩ := h
  exact ⟨k + 1, by push_cast; ring⟩

/-- After the last occurrence up to `now` comes the first one beyond it. -/
theorem isLeast_add (h : t ∈ grid s every) (hle : t ≤ now) (hlt : now < t + every) :
    IsLeast (grid s every ∩ Set.Ioi now) (t + every) := by
  refine ⟨⟨add_mem_grid h, hlt⟩, ?_⟩
  obtain ⟨k, hk⟩ := h
  rintro u ⟨⟨j, hj⟩, hu : now < u⟩
  dsimp only at hk hj
  have hmono : ∀ {m n : Nat}, m ≤ n → (m : Int) * every ≤ n * every := fun h =>
    Int.mul_le_mul_of_nonneg_right (Int.ofNat_le.mpr h) (Int.natCast_nonneg every)
  have hkj : k < j := by
    by_contra hjk
    have := hmono (Nat.le_of_not_lt hjk)
    omega
  have hstep := hmono (Nat.succ_le_of_lt hkj)
  rw [Nat.succ_eq_add_one, Int.natCast_add_one, Int.add_mul, Int.one_mul] at hstep
  omega

theorem nextAfter_interval (h : nextAfter cr (.interval every startAt) t = .ok next) :
    next = some (t + every) := by
  unfold nextAfter timeDeltaFromStd checkedAddSigned at h
  grind

/-- The division finds the first occurrence beyond `now`. -/
theorem nextFutureOccurrence_spec (hpos : 0 < every) (hle : s ≤ now)
    (h : nextFutureOccurrence cr (.interval every startAt) s now = .ok next) :
    ∃ u, next = some u ∧ IsLeast (grid s every ∩ Set.Ioi now) u := by
  have hvalue : next = some (s + (max (now - s) 0 / every + 1) * every) := by
    unfold nextFutureOccurrence at h
    dsimp only at h
    split at h
    · cases h
    · rw [if_neg (Nat.ne_of_gt hpos)] at h
      split at h
      · cases h
      · unfold datetimeFromNanos at h
        split at h <;> grind
  have hev : (0 : Int) < every := Int.natCast_pos.mpr hpos
  have hq : 0 ≤ (now - s) / every := Int.ediv_nonneg (by omega) (by omega)
  have hlow := Int.ediv_mul_le (now - s) (Int.ne_of_gt hev)
  have hhigh := Int.lt_ediv_add_one_mul_self (now - s) hev
  have hmem : s + (now - s) / every * every ∈ grid s every :=
    ⟨((now - s) / every).toNat, by dsimp only; rw [Int.toNat_of_nonneg hq]⟩
  have hnext : s + ((now - s) / every + 1) * every = s + (now - s) / every * every + every := by ring
  rw [max_eq_left (by omega), hnext] at hvalue
  exact ⟨_, hvalue, isLeast_add hmem (by omega) (by omega)⟩

/-- The loop goes on from `t`, for `room` occurrences at most. -/
theorem catchUpLoop_spec {due : DueSchedule} : ∀ (room : Nat) (occurrences : List DateTime)
    (t : Int), t ∈ grid s every → t ≤ now →
    catchUpLoop cr (.interval every startAt) now room occurrences (some (t + every)) = .ok due →
    due.occurrences = occurrences ++
        (List.iterate (· + (every : Int)) (t + every) room).takeWhile (· ≤ now) ∧
      ∃ u ∈ grid s every, u ≤ now ∧ due.next = some (u + every)
  | 0, occurrences, t, ht, hle, h => by
    cases h
    exact ⟨(append_nil _).symm, t, ht, hle, rfl⟩
  | room + 1, occurrences, t, ht, hle, h => by
    unfold catchUpLoop at h
    split at h
    · rename_i hnext
      cases hn : nextAfter cr (.interval every startAt) (t + every) with
      | error =>
        rw [hn] at h
        cases h
      | ok =>
        rw [hn, nextAfter_interval hn] at h
        obtain ⟨hocc, hrest⟩ := catchUpLoop_spec room _ (t + every) (add_mem_grid ht) hnext h
        refine ⟨?_, hrest⟩
        rw [hocc, List.iterate, takeWhile_cons_of_pos (by simpa using hnext),
          append_assoc, singleton_append]
    · rename_i hnext
      cases h
      refine ⟨?_, t, ht, hle, rfl⟩
      rw [List.iterate, takeWhile_cons_of_neg (by simpa using hnext), append_nil]

/-- What a misfire policy makes of the occurrences that are due. -/
def MisfirePolicy.occurrences (s now : DateTime) (every : Duration) (maximumCatchUp : Nat) :
    MisfirePolicy → List DateTime
  | .skip => []
  | .fireOnce => [now]
  | .catchUp maxRuns =>
    (List.iterate (· + (every : Int)) s (min maxRuns maximumCatchUp)).takeWhile (· ≤ now)

/-- **Misfire arithmetic**: a timer that is not late by a whole interval produces its own occurrence;
    otherwise the policy says which ones, and the next occurrence is the first one after `now`. -/
theorem misfire_arithmetic (cr : Croner) (trigger : Trigger) (every : Duration)
    (startAt : Option DateTime) (s now : Int) (maximumCatchUp : Nat) (due : DueSchedule)
    (hs : trigger.schedule = .interval every startAt) (hpos : 0 < every) (hmax : 1 ≤ maximumCatchUp)
    (h : dueOccurrences cr trigger s now maximumCatchUp = .ok due) :
    if now < s + every then due = ⟨[s], some (s + every)⟩ ∧
      (s ≤ now → IsLeast (grid s every ∩ Set.Ioi now) (s + every))
    else due.occurrences = trigger.misfire.occurrences s now every maximumCatchUp ∧
      ∃ next, due.next = some next ∧ IsLeast (grid s every ∩ Set.Ioi now) next := by
  have hself : s ∈ grid s every := ⟨0, by simp⟩
  unfold dueOccurrences at h
  rw [hs, if_neg (by simp [Schedule.isOnce])] at h
  cases hn : nextAfter cr (.interval every startAt) s with
  | error =>
    rw [hn] at h
    cases h
  | ok =>
    rw [hn, nextAfter_interval hn] at h
    by_cases hlate : now < s + every
    · have hmissed : missed (some (s + every)) now = false := by simpa [missed] using hlate
      dsimp only at h
      rw [hmissed, if_pos Bool.false_ne_true] at h
      rw [if_pos hlate]
      cases h
      exact ⟨rfl, fun hle => isLeast_add hself hle hlate⟩
    · have hmissed : missed (some (s + every)) now = true := by simpa [missed] using hlate
      have hle : s ≤ now := by omega
      rw [if_neg hlate]
      dsimp only at h
      rw [hmissed, if_neg (by decide)] at h
      cases hm : trigger.misfire with
      | skip | fireOnce =>
        rw [hm] at h
        cases hf : nextFutureOccurrence cr (.interval every startAt) s now with
        | error => rw [hf] at h; cases h
        | ok =>
          rw [hf] at h
          cases h
          exact ⟨rfl, nextFutureOccurrence_spec hpos hle hf⟩
      | catchUp maxRuns =>
        rw [hm] at h
        dsimp only at h
        split at h
        · cases h
        · rename_i caught hc
          obtain ⟨hocc, u, hu, hule, hnext⟩ := catchUpLoop_spec _ _ s hself hle hc
          -- the planned time itself was taken before the loop
          have hfirst : caught.occurrences =
              (MisfirePolicy.catchUp maxRuns).occurrences s now every maximumCatchUp := by
            obtain ⟨room, hroom⟩ : ∃ room, min (maxRuns : Nat) maximumCatchUp = room + 1 :=
              Nat.exists_eq_add_one.mpr (by have := maxRuns.pos; omega)
            rw [hocc, MisfirePolicy.occurrences, hroom, List.iterate,
              takeWhile_cons_of_pos (by simpa using hle)]
            rfl
          split at h
          · split at h
            · cases h
            · rename_i hf
              cases h
              exact ⟨hfirst, nextFutureOccurrence_spec hpos hle hf⟩
          · rename_i hnot
            cases h
            refine ⟨hfirst, u + every, hnext, isLeast_add hu hule ?_⟩
            simpa [hnext, missed] using hnot

/-- An hourly Job that was asleep for two and a half hours catches up on three occurrences. -/
theorem hourly_catch_up :
    let hourly : Trigger := ⟨.interval 3600 none, .catchUp 5, none⟩
    let cr : Croner := ⟨fun _ => .ok (), fun _ _ t => .ok t⟩
    dueOccurrences cr hourly 0 9000 100 = .ok ⟨[0, 3600, 7200], some 10800⟩ ∧
      IsLeast (grid 0 3600 ∩ Set.Ioi 9000) 10800 := by
  intro hourly cr
  have hdue : dueOccurrences cr hourly 0 9000 100 = .ok ⟨[0, 3600, 7200], some 10800⟩ := by
    decide +kernel
  have h := misfire_arithmetic cr hourly 3600 none 0 9000 100 _ rfl (by decide) (by decide) hdue
  rw [if_neg (by decide)] at h
  obtain ⟨-, next, hnext, hleast⟩ := h
  cases hnext
  exact ⟨hdue, hleast⟩

end Smalux.Scheduler
