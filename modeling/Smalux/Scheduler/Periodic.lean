/-
  Subject:   A periodic Job goes on.

  An expiry takes the Job's timer away, and the next one is set at once unless backpressure held an
  execution back. Then the timer waits for `restore_blocked`, which computes it from the planned
  time of the last trigger execution it restored -- in the SAME pass. A list that mixes a trigger
  execution with a retry can come back over two passes: the second one restores the retry alone,
  has no planned time, and sets no timer.

  * `JobEntry.Sound` -- what is known of a Job between two messages;
  * `JobsSound.step` -- commands, results and dispatch keep it;
  * `JobsSound.handleTimer` -- an expiry keeps it; for the restore pass and whole runs see
    `Scheduler/Backpressure.lean`.
-/
import Smalux.Scheduler.Expiry
import Smalux.Scheduler.Occurrences
import Smalux.Scheduler.RunIds

namespace Smalux.Scheduler

open Lib SchedulerActor Table List Option

variable {f : JobEntry → JobEntry} {kind : StepKind} {entry : TimerEntry}

variable {jobId : JobId} {job : JobEntry} {env : Env} {a a' : SchedulerActor}

/-! ## 1. What is known of a Job -/

/-- Interval or cron. -/
def JobEntry.Periodic (job : JobEntry) : Prop := job.trigger.schedule.isOnce = false
  deriving Decidable

/-- An enabled periodic Job has a timer, or work it holds back. -/
def JobEntry.Armed (job : JobEntry) : Prop :=
  job.state = .enabled → job.Periodic → job.nextRunAt ≠ none ∨ job.blocked ≠ []

/-- The execution carries the planned time of a trigger. -/
def PendingExecution.Resumes (p : PendingExecution) : Prop := p.kind = .normal ∨ p.kind = .runNow
  deriving Decidable

/-- An execution a periodic Job holds back: it is of the Job's version, and the schedule goes on
    after it. -/
structure PendingExecution.Waits (cr : Croner) (job : JobEntry) (p : PendingExecution) : Prop where
  version : p.version = job.version
  resumes : p.Resumes → job.trigger.schedule.Continues cr p.scheduledAt

structure JobEntry.Sound (cr : Croner) (jobId : JobId) (job : JobEntry) : Prop where
  every : ∀ every startAt, job.trigger.schedule = .interval every startAt → 0 < every
  keepsAll : ∀ maxRuns, job.trigger.misfire = .catchUp maxRuns → job.coalescing = .keepAll
  own : ∀ p ∈ job.blocked, p.jobId = jobId
  parked : job.Periodic → job.state ≠ .enabled → job.blocked = []
  waits : job.Periodic → ∀ p ∈ job.blocked, p.Waits cr job
  armed : job.Armed

namespace JobEntry.Sound

variable {cr : Croner} {job' : JobEntry}

/-- A change of other fields; the timer may be set, but not cleared. -/
theorem frame (h : job.Sound cr jobId) (ht : job'.trigger = job.trigger)
    (hc : job'.coalescing = job.coalescing) (hv : job'.version = job.version)
    (hs : job.Periodic → job'.state = job.state) (hb : job'.blocked = job.blocked)
    (hn : job.nextRunAt ≠ none → job'.nextRunAt ≠ none) : job'.Sound cr jobId where
  every := by rw [ht]; exact h.every
  keepsAll := by rw [ht, hc]; exact h.keepsAll
  own := by rw [hb]; exact h.own
  parked := by
    unfold Periodic
    rw [ht, hb]
    intro hp hne
    exact h.parked hp (by rw [← hs hp]; exact hne)
  waits := by
    unfold Periodic
    rw [ht, hb]
    intro hp p hm
    obtain ⟨hver, hres⟩ := h.waits hp p hm
    exact ⟨hver.trans hv.symm, by rw [ht]; exact hres⟩
  armed := by
    unfold Armed Periodic
    rw [ht, hb]
    intro he hp
    rw [hs hp] at he
    exact (h.armed he hp).imp hn id

/-- Nothing waits, and there is a timer unless the Job is not enabled. -/
theorem of_empty
    (hevery : ∀ every startAt, job.trigger.schedule = .interval every startAt → 0 < every)
    (hkeep : ∀ maxRuns, job.trigger.misfire = .catchUp maxRuns → job.coalescing = .keepAll)
    (hb : job.blocked = []) (hn : job.state = .enabled → job.nextRunAt ≠ none) :
    job.Sound cr jobId where
  every := hevery
  keepsAll := hkeep
  own := fun p hm => by rw [hb] at hm; cases hm
  parked := fun _ _ => hb
  waits := fun _ p hm => by rw [hb] at hm; cases hm
  armed := fun he _ => .inl (hn he)

theorem disableEntry (h : job.Sound cr jobId) (version : Nat) (reason : String) (now : DateTime) :
    (disableEntry version reason now job).Sound cr jobId :=
  of_empty h.every h.keepsAll rfl nofun

theorem scheduleEntry (h : job.Sound cr jobId) (key : Nat) (runAt : DateTime) :
    (scheduleEntry key runAt job).Sound cr jobId :=
  h.frame rfl rfl rfl (fun _ => rfl) rfl fun _ => some_ne_none _

theorem successEntry (h : job.Sound cr jobId) : (successEntry job).Sound cr jobId := by
  refine h.frame rfl rfl rfl (fun hp => ?_) rfl id
  have hp : job.trigger.schedule.isOnce = false := hp
  simp [SchedulerActor.successEntry, hp]

/-- A Job that was not enabled has nothing waiting, so the new version holds nothing old. -/
theorem enableEntry (h : job.Sound cr jobId) (hs : job.state ≠ .enabled) (version key : Nat)
    (now next : DateTime) :
    (SchedulerActor.scheduleEntry key next (enableEntry version now job)).Sound cr jobId where
  every := h.every
  keepsAll := h.keepsAll
  own := h.own
  parked := fun _ hne => absurd rfl hne
  waits := fun hp p hm => by
    have hb : job.blocked = [] := h.parked hp hs
    have hm : p ∈ job.blocked := hm
    rw [hb] at hm
    cases hm
  armed := fun _ _ => .inl (some_ne_none _)

end JobEntry.Sound

/-- Every Job is sound, and the configuration allows no empty interval. -/
structure JobsSound (env : Env) (a : SchedulerActor) : Prop where
  interval : 0 < a.config.minimumInterval
  jobs : ∀ jobId job, a.jobs.get jobId = some job → job.Sound env.croner jobId

/-! ## 2. Commands, results and dispatch -/

theorem validateConfig_interval {config : SchedulerConfig} {u : Unit}
    (h : validateConfig config = .ok u) : 0 < config.minimumInterval := by
  unfold validateConfig at h
  split at h
  · cases h
  · rename_i hz
    simp only [not_or] at hz
    exact Nat.pos_of_ne_zero hz.2.2.2.2.2.1

namespace JobsSound

/-- One Job is replaced. -/
theorem replace (h : JobsSound env a) (jobId : JobId) (hc : a'.config = a.config)
    (hself : ∀ job, a'.jobs.get jobId = some job → job.Sound env.croner jobId)
    (hother : ∀ id, id ≠ jobId → a'.jobs.get id = a.jobs.get id) : JobsSound env a' where
  interval := by rw [hc]; exact h.interval
  jobs := fun id job hj => by
    by_cases hid : id = jobId
    · rw [hid] at hj ⊢
      exact hself job hj
    · rw [hother id hid] at hj
      exact h.jobs id job hj

/-- One Job, if it is there, is changed by `f`. -/
theorem map (h : JobsSound env a) (hc : a'.config = a.config)
    (hget : ∀ id, a'.jobs.get id = if id = jobId then (a.jobs.get id).map f else a.jobs.get id)
    (hf : ∀ job, a.jobs.get jobId = some job → job.Sound env.croner jobId →
      (f job).Sound env.croner jobId) : JobsSound env a' := by
  refine h.replace jobId hc (fun job' hj => ?_) fun id hid => (hget id).trans (if_neg hid)
  rw [hget, if_pos rfl] at hj
  obtain ⟨job, hget, rfl⟩ := map_eq_some_iff.mp hj
  exact hf job hget (h.jobs jobId job hget)

theorem modifyJob (h : JobsSound env a)
    (hf : ∀ job, a.jobs.get jobId = some job → job.Sound env.croner jobId →
      (f job).Sound env.croner jobId) : JobsSound env (a.modifyJob jobId f) :=
  h.map rfl (fun id => get_modify a.jobs jobId id f) hf

theorem commitDelete (h : JobsSound env a) (jobId : JobId) (job : JobEntry) (cancelRunning : Bool) :
    JobsSound env (a.commitDelete env jobId job cancelRunning) := by
  refine h.replace jobId (config_commitDelete env a jobId job cancelRunning) (fun job' hj => ?_)
    fun id hid => ?_
  · rw [get_commitDelete, if_pos rfl] at hj
    cases hj
  · rw [get_commitDelete, if_neg hid]

/-- What the checks of a trigger leave of `JobEntry.Sound`. -/
theorem validated {cr : Croner} {trigger : Trigger} {options : JobOptions} {config : SchedulerConfig}
    (hi : 0 < config.minimumInterval) (hv : validateTrigger cr trigger options config = .ok ()) :
    (∀ every startAt, trigger.schedule = .interval every startAt → 0 < every) ∧
      ∀ maxRuns, trigger.misfire = .catchUp maxRuns →
        (effectiveQueuePolicies trigger options).1 = .keepAll := by
  obtain ⟨-, hsched, hmis, -⟩ := validateTrigger_ok _ hv
  refine ⟨fun every startAt hs => ?_, fun _ hm => congrArg Prod.fst (catchUp_lossless hmis hm)⟩
  rw [hs] at hsched
  exact Nat.lt_of_lt_of_le hi (minimumInterval_le _ hsched)

/-- An update that passed its checks leaves a sound Job: the waiting work moves on to the new
    version or goes, and an enabled Job has a timer. -/
theorem updatedEntry {patch : JobPatch} {plan : JobUpdatePlan} (hi : 0 < a.config.minimumInterval)
    (hjob : job.Sound env.croner jobId) {a₀ : SchedulerActor} (hc : a₀.config = a.config)
    (hget : a₀.jobs.get jobId = some job)
    (hplan : a₀.planJobUpdate env jobId job.version patch = .ok plan) :
    (a.updatedEntry env jobId patch plan job).Sound env.croner jobId := by
  obtain ⟨job', hj', -, -, hnext, htrig, htask, hvalid, -⟩ := planJobUpdate_ok env hplan
  rw [hget] at hj'
  cases hj'
  rw [hc] at hvalid
  obtain ⟨hevery, hkeep⟩ := validated hi hvalid
  -- the waiting work goes, or moves on to the new version of the same trigger
  have hwork : ∀ key next, (job.state = .enabled → next ≠ none) →
      ({ updateWork plan (patchEntry patch plan (a.now env) job) with
          normalTimerKey := key, nextRunAt := next } : JobEntry).Sound env.croner jobId := by
    intro key next hn
    unfold updateWork
    split
    · exact .of_empty hevery hkeep rfl hn
    · rename_i hsame
      have hsame : patch.trigger = none := by
        rw [← not_isSome_iff_eq_none, ← htrig]
        exact fun h => hsame (.inl h)
      have htrigger : patch.trigger.getD job.trigger = job.trigger := by rw [hsame]; rfl
      refine ⟨hevery, hkeep, fun p hm => ?_, fun hp hne => ?_, fun hp p hm => ?_,
        fun he _ => .inl (hn he)⟩
      · obtain ⟨q, hq, rfl⟩ := mem_map.mp hm
        exact hjob.own q hq
      · have hp : (patch.trigger.getD job.trigger).schedule.isOnce = false := hp
        rw [htrigger] at hp
        exact map_eq_nil_iff.mpr (hjob.parked hp hne)
      · have hp : (patch.trigger.getD job.trigger).schedule.isOnce = false := hp
        rw [htrigger] at hp
        obtain ⟨q, hq, rfl⟩ := mem_map.mp hm
        refine ⟨rfl, fun hr => ?_⟩
        show (patch.trigger.getD job.trigger).schedule.Continues env.croner q.scheduledAt
        rw [htrigger]
        exact (hjob.waits hp q hq).resumes hr
  unfold SchedulerActor.updatedEntry
  split
  · exact hwork _ (some _) fun _ => some_ne_none _
  · rename_i hno
    have hidle : job.state ≠ .enabled := fun he => by
      obtain ⟨next, hn⟩ := planNextRun_some env he hnext
      exact hno next he hn
    have h := hwork none none fun he => absurd he hidle
    have heq : ({ updateWork plan (patchEntry patch plan (a.now env) job) with
        normalTimerKey := none, nextRunAt := none } : JobEntry) =
        updateWork plan (patchEntry patch plan (a.now env) job) := by
      unfold updateWork
      split <;> rfl
    rwa [heq] at h

/-- A new Job is checked like an updated one. -/
theorem newEntry (hi : 0 < a.config.minimumInterval) (jobId : JobId) (generation : Nat)
    (enabled : Bool) {trigger : Trigger} (task : TaskBinding) {options : JobOptions}
    (now firstRun : DateTime) (key : Nat)
    (hv : validateTrigger env.croner trigger options a.config = .ok ()) :
    (if enabled then scheduleEntry key firstRun (newEntry generation enabled trigger task options now)
      else newEntry generation enabled trigger task options now).Sound env.croner jobId := by
  obtain ⟨hevery, hkeep⟩ := validated hi hv
  cases enabled with
  | true => exact .of_empty hevery hkeep rfl fun _ => some_ne_none _
  | false => exact .of_empty hevery hkeep rfl nofun

/-- **Commands, results and dispatch** keep every Job sound: only an execution on its way takes a
    timer or waiting work from a Job. -/
theorem step {m m' : Machine} (hstep : Step env kind m m') (hk : kind ≠ .work)
    (h : JobsSound env m.actor) : JobsSound env m'.actor := by
  cases hstep with
  | fire | draw | queue | block | drop | dropReplaceable | unblock => exact absurd rfl hk
  | emit | cancel | expire | ignore | fireRetry | clearRetries | shrinkReady | lose | retry
  | forget | silent =>
    exact ⟨h.interval, h.jobs⟩
  | configure _ config hc => exact ⟨validateConfig_interval hc, h.jobs⟩
  | scheduleNormal =>
    exact h.map (config_scheduleNormal ..) (get_jobs_scheduleNormal _ _ _ _ _) fun _ _ hs =>
      hs.scheduleEntry _ _
  | start _ p =>
    unfold spawnExecution
    split
    · exact ⟨h.interval, h.jobs⟩
    · split
      · exact ⟨h.interval, h.jobs⟩
      · have hjob : JobsSound env
            (m.actor.modifyJob p.jobId (startEntry (m.actor.now env) p.scheduledAt)) :=
          h.modifyJob fun job _ hs => hs.frame rfl rfl rfl (fun _ => rfl) rfl id
        exact ⟨hjob.interval, hjob.jobs⟩
  | finish _ task =>
    have hjob : JobsSound env
        (m.actor.modifyJob task.jobId (releaseEntry (m.actor.now env))) :=
      h.modifyJob fun job _ hs => hs.frame rfl rfl rfl (fun _ => rfl) rfl id
    exact ⟨hjob.interval, hjob.jobs⟩
  | succeed _ => exact h.modifyJob fun job _ hs => hs.successEntry
  | fail _ =>
    exact h.modifyJob fun job _ hs => hs.frame rfl rfl rfl (fun _ => rfl) rfl id
  | complete _ jobId now job hp hj ho =>
    refine h.modifyJob fun job' hj' hs => hs.frame rfl rfl rfl (fun hper => ?_) rfl id
    -- only a one-shot Job is completed
    rw [hj] at hj'
    cases hj'
    have hper : job.trigger.schedule.isOnce = false := hper
    rw [ho] at hper
    cases hper
  | rehash _ jobs hsame =>
    refine ⟨h.interval, fun id job hj => h.jobs id job ?_⟩
    rw [← hsame.get_eq id]
    exact hj
  | disable =>
    exact h.map rfl (get_commitDisable _ _ _ _ _ _) fun _ _ hs => hs.disableEntry _ _ _
  | update _ jobId job patch plan hj hv hplan =>
    obtain ⟨a₀, hc, hjobs, hplan⟩ := hplan
    refine h.replace jobId (config_commitUpdate env m.actor jobId patch plan job) (fun job' hj' => ?_)
      fun id hid => ?_
    · rw [get_commitUpdate env patch plan hj, if_pos rfl] at hj'
      cases hj'
      exact updatedEntry h.interval (h.jobs jobId job hj) hc (by rw [hjobs]; exact hj) hplan
    · rw [get_commitUpdate env patch plan hj, if_neg hid]
  | enable _ jobId job now next hj hs =>
    refine h.map (config_scheduleNormal ..) (get_commitEnable env (m.actor.dropWork jobId).tick jobId
      (job.version + 1) now next) fun old hold hjob => ?_
    cases hj.symm.trans hold
    exact hjob.enableEntry hs _ _ _ _
  | delete _ jobId job cancelRunning => exact h.commitDelete jobId job cancelRunning
  | install _ jobId generation enabled trigger task options now firstRun hj hv =>
    refine h.replace jobId (config_installJob env m.actor jobId _ enabled firstRun) (fun job' hj' => ?_)
      fun id hid => ?_
    · rw [get_installJob, if_pos rfl] at hj'
      cases hj'
      exact newEntry h.interval jobId generation enabled task now firstRun _ hv
    · rw [get_installJob, if_neg hid]

end JobsSound

/-! ## 3. A timer expires -/

/-- `next_after` works for the schedule now and at every occurrence that has passed. -/
structure Schedule.GoesOn (env : Env) (schedule : Schedule) : Prop where
  now : ∀ n, schedule.Continues env.croner (env.clock n)
  past : ∀ n t next, nextAfter env.croner schedule t = .ok (some next) → next ≤ env.clock n →
    schedule.Continues env.croner next

/-- The timer, if its Job is periodic and heeds it, has a next occurrence to be followed by. -/
def TimerGoesOn (env : Env) (a : SchedulerActor) (entry : TimerEntry) : Prop :=
  ∀ job, a.jobs.get entry.jobId = some job → job.version = entry.version → job.state = .enabled →
    job.Periodic → job.trigger.schedule.GoesOn env ∧
      (entry.kind = .normal → job.trigger.schedule.Continues env.croner entry.runAt)

/-- The Job after an expiry or a restore: its list changed, its timer was set or not. -/
theorem JobEntry.Sound.hold {cr : Croner} (h : job.Sound cr jobId) (key : Option Nat)
    {next : Option DateTime} {blocked : List PendingExecution} (ho : ∀ p ∈ blocked, p.jobId = jobId)
    (he : job.Periodic → blocked ≠ [] → job.state = .enabled)
    (hb : job.Periodic → ∀ p ∈ blocked, p.Waits cr job)
    (ha : job.state = .enabled → job.Periodic → next ≠ none ∨ blocked ≠ []) :
    ({ job with normalTimerKey := key, nextRunAt := next, blocked := blocked } : JobEntry).Sound cr
      jobId where
  every := h.every
  keepsAll := h.keepsAll
  own := ho
  parked := fun hp hne => by
    by_contra hblocked
    exact hne (he hp hblocked)
  waits := fun hp p hm => ⟨(hb hp p hm).version, (hb hp p hm).resumes⟩
  armed := ha

namespace JobsSound

variable {blocked : List PendingExecution}

theorem holding (h : JobsSound env a) (hold : Holding a jobId job blocked a')
    (hjob : ({ job with blocked := blocked } : JobEntry).Sound env.croner jobId) :
    JobsSound env a' := by
  refine h.replace jobId hold.config (fun job' hj => ?_) hold.other
  rw [hold.self] at hj
  cases hj
  exact hjob

/-- The same, and the timer is set. -/
theorem holding_scheduled (h : JobsSound env a) (hold : Holding a jobId job blocked a')
    (runAt : DateTime) (kind : TimerKind)
    (hjob : ∀ key, (scheduleEntry key runAt { job with blocked := blocked }).Sound env.croner jobId) :
    JobsSound env (a'.scheduleNormal env jobId runAt kind) := by
  refine h.replace jobId ((config_scheduleNormal env a' jobId runAt kind).trans hold.config)
    (fun job' hj => ?_) fun id hid => ?_
  · rw [get_jobs_scheduleNormal, if_pos rfl, hold.self] at hj
    cases hj
    exact hjob _
  · rw [get_jobs_scheduleNormal, if_neg hid, hold.other id hid]

/-- The due times of a sound Job can be computed, as long as its schedule goes on. -/
theorem dueSchedule_ok (h : JobsSound env a) (hgo : TimerGoesOn env a entry)
    (hj : a.jobs.get entry.jobId = some job) (hv : job.version = entry.version)
    (hs : job.state = .enabled) (hk : entry.kind = .normal ∨ entry.kind = .runNow) :
    ∃ due, a.dueSchedule env job entry.runAt (a.now env) (entry.kind == TimerKind.runNow) = .ok due ∧
      (job.Periodic → due.GoesOn env.croner job.trigger) := by
  have hgo := hgo job hj hv hs
  rcases hk with hk | hk <;> rw [hk]
  · by_cases hp : job.Periodic
    · obtain ⟨hgoes, hat⟩ := hgo hp
      obtain ⟨due, hdue, hspec⟩ := dueOccurrences_some a.config.maximumCatchUp (h.jobs _ _ hj).every
        (hat hk) (hgoes.now a.ticks) fun t next ht hle => hgoes.past a.ticks t next ht hle
      exact ⟨due, hdue, fun _ => hspec⟩
    · have honce : job.trigger.schedule.isOnce = true := by
        simpa [JobEntry.Periodic] using hp
      refine ⟨⟨[entry.runAt], none⟩, ?_, fun hper => absurd hper hp⟩
      show dueOccurrences env.croner job.trigger entry.runAt _ _ = _
      rw [dueOccurrences, if_pos honce]
  · refine ⟨_, rfl, fun hp => ?_⟩
    obtain ⟨next, hn⟩ := (hgo hp).1.now a.ticks
    refine ⟨next, ?_, fun t ht => ?_, .inl (Nat.le_refl _)⟩
    · show ((nextAfter env.croner job.trigger.schedule (env.clock a.ticks)).toOption).join = some next
      rw [hn]
      rfl
    · rw [mem_singleton.mp ht]
      exact ⟨next, hn⟩

/-- **An expired timer** leaves every Job sound: the occurrences are admitted, and the next timer is
    set unless one was held back. -/
theorem handleTimer (h : JobsSound env a) (entry : TimerEntry) (batchId : Nat)
    (hgo : TimerGoesOn env a entry) : JobsSound env (a.handleTimer env entry batchId) := by
  have hexpiry := expiry env a entry batchId
  generalize a.handleTimer env entry batchId = a' at hexpiry ⊢
  cases hexpiry with
  | ignored => exact h
  | retried job runId scheduledAt attempt blocked _ hj hv hs hk hadm hheld =>
    have hjob := h.jobs entry.jobId job hj
    have h₁ : JobsSound env { a with retryTimers := a.retryTimers.remove runId } :=
      ⟨h.interval, h.jobs⟩
    refine h₁.holding hadm.toHolding (hjob.hold job.normalTimerKey (fun q hq => ?_)
      (fun _ _ => hs) (fun hper q hq => ?_) fun he hper => (hjob.armed he hper).imp id ?_)
    · rcases hadm.held q hq with hq | hq
      · exact hjob.own q hq
      · rw [mem_singleton.mp hq]
        rfl
    · rcases hadm.held q hq with hq | hq
      · exact hjob.waits hper q hq
      · rw [mem_singleton.mp hq]
        exact ⟨hv.symm, fun hr => hr.elim nofun nofun⟩
    · exact fun hne hnil => hne (eq_nil_of_subset_nil (hnil ▸ hheld))
  | failed job error hj hv hs hk hdue =>
    obtain ⟨due, hok, -⟩ := h.dueSchedule_ok hgo hj hv hs hk
    cases hok.symm.trans hdue
  | fired job due b blocked drawn b' _ hj hv hs hk hdue halike hadm _ hdrawn hnext hc htimes =>
    have hjob := h.jobs entry.jobId job hj
    obtain ⟨due', hok, hspec⟩ := h.dueSchedule_ok hgo hj hv hs hk
    cases hok.symm.trans hdue
    have hjb := get_cleared halike hj
    have hcleared : Holding a entry.jobId (clearNormalTimer job) job.blocked b := by
      refine ⟨hc, hjb, fun id hid => ?_⟩
      rw [halike.jobs]
      exact (get_modify a.jobs entry.jobId id _).trans (if_neg hid)
    have hold := hcleared.trans hadm.toHolding
    have hsound : ∀ key next, (job.Periodic → next ≠ none ∨ blocked ≠ []) →
        ({ job with normalTimerKey := key, nextRunAt := next, blocked := blocked } : JobEntry).Sound
          env.croner entry.jobId := by
      intro key next ha
      refine hjob.hold key (fun p hm => ?_) (fun _ _ => hs) (fun hp p hm => ?_) fun _ => ha
      · exact (hadm.held p hm).elim (hjob.own p) fun hm => (hdrawn p hm).jobId
      · obtain ⟨-, -, hcont, -⟩ := hspec hp
        rcases hadm.held p hm with hm | hm
        · exact hjob.waits hp p hm
        · exact ⟨(hdrawn p hm).version, fun _ => hcont _ (htimes p hm)⟩
    rcases hnext with ⟨rfl, hkept⟩ | ⟨next, rfl⟩
    · refine h.holding hold (hsound none none fun hp => .inr ?_)
      obtain ⟨next, hnext, -, hlen⟩ := hspec hp
      refine hkept (by rw [hnext]; exact some_ne_none _) ?_
      exact hlen.elim .inr fun ⟨maxRuns, hm⟩ => .inl (hjob.keepsAll maxRuns hm)
    · exact h.holding_scheduled hold next .normal fun key =>
        hsound (some key) (some next) fun _ => .inl (some_ne_none _)

end JobsSound

/-! ## 4. A batch of timers -/

/-- No Job was enabled, updated or installed since `a`. -/
def NoNewVersion (a a' : SchedulerActor) : Prop :=
  ∀ id job', a'.jobs.get id = some job' → job'.state = .enabled →
    ∃ job, a.jobs.get id = some job ∧ job.state = .enabled ∧ job'.trigger = job.trigger ∧
      job'.version = job.version

namespace NoNewVersion

theorem refl (a : SchedulerActor) : NoNewVersion a a := fun _ job hj he => ⟨job, hj, he, rfl, rfl⟩

theorem map {a'' : SchedulerActor} (h : NoNewVersion a a')
    (hget : ∀ id, a''.jobs.get id = if id = jobId then (a'.jobs.get id).map f else a'.jobs.get id)
    (hs : ∀ job, (f job).state = .enabled → job.state = .enabled)
    (ht : ∀ job, (f job).trigger = job.trigger) (hv : ∀ job, (f job).version = job.version) :
    NoNewVersion a a'' := by
  intro id job' hj he
  rw [hget] at hj
  split at hj
  · obtain ⟨job, hget, rfl⟩ := map_eq_some_iff.mp hj
    obtain ⟨old, hold, he', htr, hver⟩ := h id job hget (hs job he)
    exact ⟨old, hold, he', (ht job).trans htr, (hv job).trans hver⟩
  · exact h id job' hj he

theorem modifyJob (h : NoNewVersion a a')
    (hs : ∀ job, (f job).state = .enabled → job.state = .enabled)
    (ht : ∀ job, (f job).trigger = job.trigger) (hv : ∀ job, (f job).version = job.version) :
    NoNewVersion a (a'.modifyJob jobId f) :=
  h.map (fun id => get_modify a'.jobs jobId id f) hs ht hv

/-- Only mutations and installs make a new version. -/
theorem step {m m' : Machine} (hstep : Step env kind m m') (hk : kind = .plain ∨ kind = .work)
    (h : NoNewVersion a m.actor) : NoNewVersion a m'.actor := by
  cases hstep with
  | silent | configure | emit | cancel | expire | ignore | fireRetry | clearRetries | draw | queue | drop
  | shrinkReady | lose | retry | forget => exact h
  | fire | block | dropReplaceable | unblock | fail =>
    exact h.modifyJob (fun _ he => he) (fun _ => rfl) fun _ => rfl
  | finish _ task =>
    have hjob : NoNewVersion a
        (m.actor.modifyJob task.jobId (releaseEntry (m.actor.now env))) :=
      h.modifyJob (fun _ he => he) (fun _ => rfl) fun _ => rfl
    exact hjob
  | succeed =>
    refine h.modifyJob (fun job he => ?_) (fun _ => rfl) fun _ => rfl
    unfold SchedulerActor.successEntry at he
    split at he
    · cases he
    · exact he
  | complete => exact h.modifyJob (fun _ he => by cases he) (fun _ => rfl) fun _ => rfl
  | scheduleNormal =>
    exact h.map (get_jobs_scheduleNormal _ _ _ _ _) (fun _ he => he) (fun _ => rfl) fun _ => rfl
  | rehash _ jobs hsame =>
    intro id job' hj he
    exact h id job' ((hsame.get_eq id).symm.trans hj) he
  | start | disable | update | enable | delete | install => simp at hk

theorem timerGoesOn (h : NoNewVersion a a') (hgo : TimerGoesOn env a entry) :
    TimerGoesOn env a' entry := by
  intro job' hj hv he hp
  obtain ⟨job, hget, he', ht, hver⟩ := h entry.jobId job' hj he
  rw [ht]
  refine hgo job hget (hver.symm.trans hv) he' ?_
  unfold JobEntry.Periodic at hp ⊢
  rwa [ht] at hp

end NoNewVersion

namespace JobsSound

/-- A timer whose Job goes on does not disable it. -/
theorem not_disables (h : JobsSound env a) (hgo : TimerGoesOn env a entry) :
    ¬ TimerDisables env a entry := by
  rintro ⟨hi, hk, job', error, hj, he⟩
  obtain ⟨job, hget, rfl⟩ := get_modify_self hj
  by_cases hheed : job.version ≠ entry.version ∨ job.state ≠ .enabled
  · refine hi fun job₁ hj₁ => ?_
    rw [hget] at hj₁
    cases hj₁
    exact hheed
  · obtain ⟨hv, hs, -⟩ := not_ignored hget hheed
    obtain ⟨due, hdue, -⟩ := h.dueSchedule_ok hgo hget hv hs (.inl hk)
    rw [hk] at hdue
    cases hdue.symm.trans he

theorem handleTimers (batchId : Nat) : ∀ (entries : List (Nat × TimerEntry)) {a : SchedulerActor},
    JobsSound env a → (∀ e ∈ entries, TimerGoesOn env a e.2) →
    JobsSound env (a.handleTimers env batchId entries)
  | [], _, h, _ => h
  | expired :: rest, a, h, hgo => by
    have hfirst := hgo expired mem_cons_self
    have hsteps : Steps env (fun kind => kind = .plain ∨ kind = .work)
        ⟨a, [expired], [], []⟩ ⟨a.handleTimer env expired.2 batchId, [], [], []⟩ :=
      handleTimer_steps (.inl rfl) (.inr rfl) expired.1 expired.2 batchId
        fun hd => absurd hd (h.not_disables hfirst)
    have hversion : NoNewVersion a (a.handleTimer env expired.2 batchId) :=
      hsteps.keep (fun m => NoNewVersion a m.actor) (fun _ _ _ hk hs hi => hi.step hs hk) (.refl a)
    exact handleTimers batchId rest (h.handleTimer expired.2 batchId hfirst)
      fun e he => hversion.timerGoesOn (hgo e (mem_cons_of_mem _ he))

/-- **Any message is handled**: the Jobs stay sound if the timers that expire go on. -/
theorem handle (h : JobsSound env a) (message : Message)
    (hgo : ∀ key entry, a.timers.get key = some entry → TimerGoesOn env a entry) :
    JobsSound env (a.handle env message) := by
  by_cases ht : ∀ keys, message ≠ .expired keys
  · have hsteps : Steps env (· ≠ .work) (.idle a) (.idle (a.handle env message)) :=
      handle_steps message fun _ h he => (h.timer (.inr he)).elim ht
    exact hsteps.keep (fun m => JobsSound env m.actor) (fun _ _ _ hk hs hi => hi.step hs hk) h
  · obtain ⟨keys, rfl⟩ : ∃ keys, message = .expired keys := by simpa using ht
    rw [SchedulerActor.handle, handleExpiredBatch]
    split
    · exact h
    · exact handleTimers _ _ ⟨h.interval, h.jobs⟩ fun e he => hgo e.1 e.2 (mem_popExpired he)

end JobsSound

end Smalux.Scheduler
