/-
  Subject:   What the due times of a timer are, as long as the schedule goes on.

  * `Schedule.Continues` -- the schedule has an occurrence after the given time;
  * `nextFutureOccurrence_some` -- the division finds a future occurrence whenever `next_after`
    works at both ends;
  * **`dueOccurrences_some`** -- an expiry has a next occurrence, it produces more than one execution
    only under catch-up, and the schedule goes on after each of them.
-/
import Mathlib.Tactic.Ring
import Smalux.Scheduler.Timing

namespace Smalux.Scheduler

open List

variable {cr : Croner} {s : Schedule} {every : Duration} {startAt : Option DateTime}

/-- There is an occurrence after `t`, and `next_after` finds it. -/
def Schedule.Continues (cr : Croner) (s : Schedule) (t : DateTime) : Prop :=
  ∃ next, nextAfter cr s t = .ok (some next)

theorem Schedule.Continues.not_once {t : DateTime} (h : s.Continues cr t) : s.isOnce = false := by
  obtain ⟨next, hn⟩ := h
  cases s with
  | once => cases hn
  | interval | cron => rfl

/-- An interval goes on exactly while chrono can hold the sum. -/
theorem continues_interval_iff {t : DateTime} : (Schedule.interval every startAt).Continues cr t ↔
      (every : Int) ≤ timeDeltaMax ∧ DateTime.inRange (t + every) = true := by
  unfold Schedule.Continues nextAfter timeDeltaFromStd
  by_cases hd : (every : Int) ≤ timeDeltaMax
  · by_cases hr : DateTime.inRange (t + every) = true <;> simp [hd, checkedAddSigned, hr]
  · simp [hd]

/-- An occurrence of an interval is in chrono's range. -/
theorem inRange_of_nextAfter {t next : DateTime} (hs : s = .interval every startAt)
    (h : nextAfter cr s t = .ok (some next)) : DateTime.inRange next = true := by
  rw [hs] at h
  unfold nextAfter at h
  dsimp only at h
  split at h
  · cases h
  · split at h
    · rename_i hadd
      cases h
      unfold checkedAddSigned at hadd
      split at hadd
      · rename_i hr
        cases hadd
        exact hr
      · cases hadd
    · cases h

theorem inRange_iff {t : Int} :
    DateTime.inRange t = true ↔ -8334601228800000000000 ≤ t ∧ t ≤ 8210266876799999999999 := by
  simp [DateTime.inRange, DateTime.minUtc, DateTime.maxUtc]

/-- The first multiple of `every` after `anchor` that lies beyond `now`: beyond it by at most one
    period, and never before the next occurrence of `anchor`. -/
theorem steps_bounds (anchor now every : Int) (hpos : 0 < every) :
    anchor + every ≤ anchor + (max (now - anchor) 0 / every + 1) * every ∧
      (anchor + (max (now - anchor) 0 / every + 1) * every = anchor + every ∨
        anchor + (max (now - anchor) 0 / every + 1) * every ≤ now + every) := by
  have hdiv := Int.mul_ediv_add_emod (max (now - anchor) 0) every
  have hnonneg := Int.emod_nonneg (max (now - anchor) 0) (Int.ne_of_gt hpos)
  have hnext : anchor + (max (now - anchor) 0 / every + 1) * every =
      anchor + every + every * (max (now - anchor) 0 / every) := by ring
  rw [hnext]
  rcases le_total (now - anchor) 0 with hle | hle
  · rw [max_eq_right hle, Int.zero_ediv, Int.mul_zero]
    exact ⟨by omega, .inl (by omega)⟩
  · rw [max_eq_left hle] at hdiv hnonneg ⊢
    have hquot : 0 ≤ every * ((now - anchor) / every) :=
      Int.mul_nonneg (Int.le_of_lt hpos) (Int.ediv_nonneg hle (Int.le_of_lt hpos))
    exact ⟨by omega, .inr (by omega)⟩

/-- Inside chrono's range nothing overflows on the way back from nanoseconds. -/
theorem datetimeFromNanos_inRange {value : Int} (h : DateTime.inRange value = true) :
    datetimeFromNanos value = .ok value := by
  have hb := inRange_iff.mp h
  unfold datetimeFromNanos
  rw [if_neg (by omega), if_pos h]

/-- **The future occurrence exists** if `next_after` works at both ends of the gap. -/
theorem nextFutureOccurrence_some {anchor now : Int}
    (hpos : ∀ every startAt, s = .interval every startAt → 0 < every) (ha : s.Continues cr anchor)
    (hn : s.Continues cr now) : ∃ next, nextFutureOccurrence cr s anchor now = .ok (some next) := by
  cases s with
  | once => exact absurd ha.not_once (by simp [Schedule.isOnce])
  | cron => exact hn
  | interval every startAt =>
    have hev : 0 < every := hpos every startAt rfl
    obtain ⟨hd, har⟩ := continues_interval_iff.mp ha
    obtain ⟨-, hnr⟩ := continues_interval_iff.mp hn
    have ha' := inRange_iff.mp har
    have hn' := inRange_iff.mp hnr
    have hb := steps_bounds anchor now every (Int.natCast_pos.mpr hev)
    have hdelta : (every : Int) ≤ 9223372036854775807000000 := hd
    have hrange : DateTime.inRange
        (anchor + (max (now - anchor) 0 / every + 1) * every) = true := by
      refine inRange_iff.mpr ⟨Int.le_trans ha'.1 hb.1, ?_⟩
      rcases hb.2 with h | h <;> omega
    have h128 : ∀ x : Int, -10 ^ 30 ≤ x → x ≤ 10 ^ 30 → i128InRange x = true := by
      intro x h₁ h₂
      simp only [i128InRange, decide_eq_true_eq]
      omega
    refine ⟨anchor + (max (now - anchor) 0 / every + 1) * every, ?_⟩
    unfold nextFutureOccurrence
    simp only
    rw [if_neg (by rw [h128 _ (by omega) (by omega)]; simp), if_neg (Nat.ne_of_gt hev), if_neg,
      datetimeFromNanos_inRange hrange]
    rw [h128 _ (by omega) (by omega), h128 _ (by omega) (by omega)]
    simp

/-- The catch-up loop stops with a next occurrence. -/
theorem catchUpLoop_some {now : DateTime}
    (hpast : ∀ t next, nextAfter cr s t = .ok (some next) → next ≤ now → s.Continues cr next) :
    ∀ (room : Nat) (occurrences : List DateTime) (t value : DateTime),
      nextAfter cr s t = .ok (some value) → (∀ t ∈ occurrences, s.Continues cr t) →
      ∃ due next, catchUpLoop cr s now room occurrences (some value) = .ok due ∧
        due.next = some next ∧ ∀ t ∈ due.occurrences, s.Continues cr t
  | 0, occurrences, _, value, _, hocc => ⟨⟨occurrences, some value⟩, value, rfl, rfl, hocc⟩
  | room + 1, occurrences, t, value, ht, hocc => by
    unfold catchUpLoop
    split
    · rename_i hle
      have hv := hpast t value ht hle
      obtain ⟨next, hn⟩ := hv
      rw [hn]
      refine catchUpLoop_some hpast room (occurrences ++ [value]) value next hn fun u hu => ?_
      rcases mem_append.mp hu with hu | hu
      · exact hocc u hu
      · rw [mem_singleton.mp hu]
        exact ⟨next, hn⟩
    · exact ⟨⟨occurrences, some value⟩, value, rfl, rfl, hocc⟩

/-- There is a next occurrence, and only catch-up has more than one due time. -/
def DueSchedule.GoesOn (due : DueSchedule) (cr : Croner) (trigger : Trigger) : Prop :=
  ∃ next, due.next = some next ∧ (∀ t ∈ due.occurrences, trigger.schedule.Continues cr t) ∧
    (due.occurrences.length ≤ 1 ∨ ∃ maxRuns, trigger.misfire = .catchUp maxRuns)

/-- **An expiry**: as long as the schedule goes on after the planned time, after the present and
    after what lies between, there is a next occurrence, and only catch-up fires more than once. -/
theorem dueOccurrences_some {trigger : Trigger} {scheduledAt now : DateTime} (maximumCatchUp : Nat)
    (hpos : ∀ every startAt, trigger.schedule = .interval every startAt → 0 < every)
    (ha : trigger.schedule.Continues cr scheduledAt) (hn : trigger.schedule.Continues cr now)
    (hpast : ∀ t next, nextAfter cr trigger.schedule t = .ok (some next) → next ≤ now →
      trigger.schedule.Continues cr next) :
    ∃ due, dueOccurrences cr trigger scheduledAt now maximumCatchUp = .ok due ∧
      due.GoesOn cr trigger := by
  obtain ⟨future, hf⟩ := nextFutureOccurrence_some hpos ha hn
  have hone : ∀ {u : DateTime}, trigger.schedule.Continues cr u →
      ∀ t ∈ [u], trigger.schedule.Continues cr t := by
    intro u hu t ht
    rwa [mem_singleton.mp ht]
  have ha' := ha
  obtain ⟨next, hnext⟩ := ha'
  unfold dueOccurrences
  rw [if_neg (by rw [ha.not_once]; simp), hnext]
  dsimp only
  split
  · exact ⟨_, rfl, next, rfl, hone ha, .inl (Nat.le_refl _)⟩
  · rw [hf]
    cases hm : trigger.misfire with
    | skip => exact ⟨_, rfl, future, rfl, nofun, .inl (Nat.zero_le _)⟩
    | fireOnce => exact ⟨_, rfl, future, rfl, hone hn, .inl (Nat.le_refl _)⟩
    | catchUp maxRuns =>
      obtain ⟨due, last, hl, hlast, hocc⟩ := catchUpLoop_some hpast
        (min (maxRuns : Nat) maximumCatchUp - 1) [scheduledAt] scheduledAt next hnext (hone ha)
      dsimp only
      rw [hl]
      dsimp only
      split
      · exact ⟨_, rfl, future, rfl, hocc, .inr ⟨maxRuns, hm⟩⟩
      · exact ⟨due, rfl, last, hlast, hocc, .inr ⟨maxRuns, hm⟩⟩

end Smalux.Scheduler
