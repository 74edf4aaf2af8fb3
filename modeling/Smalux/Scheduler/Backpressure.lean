/-
  Subject:   The restore pass, and periodic Jobs along whole runs.

  * `restoreLoop_restored` -- what one round of the pass does for a Job: the first executions of its
    list are queued as far as there is room, and the planned time is that of the last trigger
    execution among THEM;
  * `Stranded` -- a list without a trigger execution, all of which fits into the queue;
  * `JobsSound.restoreBlocked` -- where no Job is stranded, the pass leaves every Job its timer or
    its list;
  * **`periodic_armed_while_guarded`**, **`restored_retry_strands_job`** -- along whole runs.
-/
import Smalux.Scheduler.Periodic

namespace Smalux.Scheduler

open Lib SchedulerActor Table List

variable {a : SchedulerActor} {env : Env} {jobId : JobId} {a' : SchedulerActor}

/-! ## 1. The loop for one Job -/

/-- How many of the executions are of the Job's version: the others are dropped. -/
def currentRuns (job : JobEntry) (runs : List PendingExecution) : Nat :=
  runs.countP fun p => decide (p.version = job.version)

/-- The loop took the executions `moved` from the list and left `rest`. -/
structure Restored (a : SchedulerActor) (jobId : JobId) (job : JobEntry) (limit : Nat)
    (resumeFrom : Option DateTime) (moved rest : List PendingExecution)
    (result : Option DateTime × SchedulerActor) : Prop where
  holding : Holding a jobId job rest result.2
  len : result.2.ready.len = a.ready.len + currentRuns job moved
  count : ∀ id, result.2.ready.countJob id =
    a.ready.countJob id + if id = jobId then currentRuns job moved else 0
  room : moved ≠ [] → a.ready.len + currentRuns job moved ≤ a.config.globalMaxPending ∧
    a.ready.countJob jobId + currentRuns job moved ≤ limit
  resume : (∃ p ∈ moved, p.version = job.version ∧ p.Resumes ∧ result.1 = some p.scheduledAt) ∨
    ((∀ p ∈ moved, p.version = job.version → ¬ p.Resumes) ∧ result.1 = resumeFrom)

theorem Restored.nothing {job : JobEntry} (hj : a.jobs.get jobId = some job) (limit : Nat)
    (resumeFrom : Option DateTime) :
    Restored a jobId job limit resumeFrom [] job.blocked (resumeFrom, a) where
  holding := ⟨rfl, hj, fun _ _ => rfl⟩
  len := rfl
  count := fun id => by simp [currentRuns]
  room := fun h => absurd rfl h
  resume := .inr ⟨nofun, rfl⟩

section RestoreLoop

variable {job : JobEntry} {p : PendingExecution} {tail : List PendingExecution}

/-- The Job without its first execution. -/
theorem get_popBlocked (hj : a.jobs.get jobId = some job) (hb : job.blocked = p :: tail)
    (id : JobId) : (a.modifyJob jobId popBlocked).jobs.get id =
      if id = jobId then some { job with blocked := tail } else a.jobs.get id := by
  refine (get_modify a.jobs jobId id popBlocked).trans ?_
  by_cases hid : id = jobId
  · rw [if_pos hid, if_pos hid, hid, hj, Option.map_some, popBlocked, hb]
    rfl
  · rw [if_neg hid, if_neg hid]

/-- What the loop remembers after the execution `p`. -/
def resumeAfter (job : JobEntry) (p : PendingExecution) (resumeFrom : Option DateTime) :
    Option DateTime :=
  if p.version = job.version ∧ p.Resumes then some p.scheduledAt else resumeFrom

/-- One round, and the rounds after it. -/
theorem Restored.cons {limit : Nat} {resumeFrom : Option DateTime}
    {moved rest : List PendingExecution} {result : Option DateTime × SchedulerActor}
    (hold : Holding a jobId job tail a')
    (hroom : a.ready.len < a.config.globalMaxPending ∧ a.ready.countJob jobId < limit)
    (hlen : a'.ready.len = a.ready.len + currentRuns job [p]) (hcount : ∀ id, a'.ready.countJob id =
      a.ready.countJob id + if id = jobId then currentRuns job [p] else 0)
    (h : Restored a' jobId { job with blocked := tail } limit (resumeAfter job p resumeFrom) moved
      rest result) : Restored a jobId job limit resumeFrom (p :: moved) rest result := by
  have hsplit : currentRuns job (p :: moved) = currentRuns job [p] + currentRuns job moved := by
    unfold currentRuns
    rw [← countP_append]
    rfl
  have hone : currentRuns job [p] ≤ 1 := countP_le_length
  have hlen' : result.2.ready.len = a'.ready.len + currentRuns job moved := h.len
  have hcount' : ∀ id, result.2.ready.countJob id =
      a'.ready.countJob id + if id = jobId then currentRuns job moved else 0 := h.count
  refine ⟨⟨h.holding.config.trans hold.config, h.holding.self, fun id hid => ?_⟩, ?_, fun id => ?_,
    fun _ => ?_, ?_⟩
  · rw [h.holding.other id hid, hold.other id hid]
  · omega
  · have h₁ := hcount id
    have h₂ := hcount' id
    split at h₁
    · rename_i hid
      rw [if_pos hid] at h₂ ⊢
      omega
    · rename_i hid
      rw [if_neg hid] at h₂ ⊢
      omega
  · have hc := hcount jobId
    rw [if_pos rfl] at hc
    by_cases hm : moved = []
    · rw [hm]
      omega
    · have hr : a'.ready.len + currentRuns job moved ≤ a'.config.globalMaxPending ∧
          a'.ready.countJob jobId + currentRuns job moved ≤ limit := h.room hm
      rw [hold.config] at hr
      omega
  · rcases h.resume with ⟨q, hq, hv, hres, hr⟩ | ⟨hno, hr⟩
    · exact .inl ⟨q, mem_cons_of_mem _ hq, hv, hres, hr⟩
    · unfold resumeAfter at hr
      split at hr
      · rename_i hp
        exact .inl ⟨p, mem_cons_self, hp.1, hp.2, hr⟩
      · rename_i hp
        refine .inr ⟨fun q hq hv hres => ?_, hr⟩
        rcases mem_cons.mp hq with rfl | hq
        · exact hp ⟨hv, hres⟩
        · exact hno q hq hv hres

/-- **The loop for one Job**: it takes the first executions of the list, as far as there is room. -/
theorem restoreLoop_restored (limit : Nat) : ∀ (fuel : Nat) (resumeFrom : Option DateTime)
    {a : SchedulerActor} {job : JobEntry}, RunsOnce env (.idle a) →
    a.jobs.get jobId = some job → (∀ p ∈ job.blocked, p.jobId = jobId) →
    ∃ moved rest, job.blocked = moved ++ rest ∧ Restored a jobId job limit resumeFrom moved rest
        (restoreLoop env jobId limit fuel resumeFrom a)
  | 0, resumeFrom, a, job, _, hj, _ => ⟨[], job.blocked, rfl, .nothing hj limit resumeFrom⟩
  | fuel + 1, resumeFrom, a, job, hruns, hj, hown => by
    unfold restoreLoop
    split
    · rename_i hroom
      rw [hj]
      dsimp only
      split
      · exact ⟨[], job.blocked, rfl, .nothing hj limit resumeFrom⟩
      · rename_i p tail hb
        have hpid : p.jobId = jobId := hown p (by rw [hb]; exact mem_cons_self)
        have hfresh : a.ready.pending.get p.runId = none :=
          hruns.not_queued_of_blocked hj (by rw [hb]; exact mem_cons_self)
        have hpop : Holding a jobId job tail (a.modifyJob jobId popBlocked) :=
          ⟨rfl, by rw [get_popBlocked hj hb, if_pos rfl], fun id hid => by
            rw [get_popBlocked hj hb, if_neg hid]⟩
        have htail : ∀ q ∈ tail, q.jobId = jobId := fun q hq =>
          hown q (by rw [hb]; exact mem_cons_of_mem _ hq)
        have hunblock := hruns.step (.unblock (.idle a) jobId job p tail hj hb)
        split
        · rename_i hv
          have hone : currentRuns job [p] = 1 := by simp [currentRuns, hv]
          have hresume : resumeAfter job p resumeFrom =
              if p.kind = .normal ∨ p.kind = .runNow then some p.scheduledAt else resumeFrom := by
            simp [resumeAfter, PendingExecution.Resumes, hv]
          generalize hqueued : SchedulerActor.emit env
            { a.modifyJob jobId popBlocked with
              ready := (a.modifyJob jobId popBlocked).ready.insert p } _ = a'
          have hready : a'.ready = a.ready.insert p := by rw [← hqueued]; rfl
          have hold : Holding a jobId job tail a' := by
            rw [← hqueued]
            exact hpop.frame rfl rfl
          have hruns' : RunsOnce env (.idle a') := by
            rw [← hqueued]
            exact (hunblock.step (.queue _ p [] rfl)).step (.emit _ (.executionQueued _ _ _ _) trivial)
          obtain ⟨moved, rest, hsplit, hrest⟩ := restoreLoop_restored limit fuel
            (resumeAfter job p resumeFrom) hruns' hold.self htail
          rw [← hresume]
          refine ⟨p :: moved, rest, by rw [hb, cons_append, ← hsplit],
            .cons hold hroom ?_ (fun id => ?_) hrest⟩
          · rw [hready, ReadyQueue.len_insert_new hfresh, hone]
          · rw [hready, ReadyQueue.countJob_insert_new hfresh, hone, hpid]
            simp only [eq_comm]
        · rename_i hv
          have hone : currentRuns job [p] = 0 := by simp [currentRuns, Ne.symm hv]
          have hresume : resumeAfter job p resumeFrom = resumeFrom := by
            simp [resumeAfter, Ne.symm hv]
          have hdrop : RunsOnce env (.idle (a.modifyJob jobId popBlocked)) :=
            hunblock.step (.drop _ p [] rfl)
          obtain ⟨moved, rest, hsplit, hrest⟩ := restoreLoop_restored limit fuel resumeFrom hdrop
            hpop.self htail
          refine ⟨p :: moved, rest, by rw [hb, cons_append, ← hsplit],
            .cons hpop hroom ?_ (fun id => ?_) (by rw [hresume]; exact hrest)⟩
          · rw [hone]
            rfl
          · rw [hone, ite_self]
            rfl
    · exact ⟨[], job.blocked, rfl, .nothing hj limit resumeFrom⟩

end RestoreLoop

/-! ## 2. The pass -/

/-- The Job waits for its timer, the pass has room for all it holds back, and none of that can tell
    when the timer is due. -/
def Stranded (a : SchedulerActor) (jobId : JobId) (job : JobEntry) : Prop :=
  job.state = .enabled ∧ job.Periodic ∧ job.nextRunAt = none ∧ job.blocked ≠ [] ∧
    (∀ p ∈ job.blocked, ¬ p.Resumes) ∧
    a.ready.len + job.blocked.length ≤ a.config.globalMaxPending ∧
    a.ready.countJob jobId + job.blocked.length ≤ a.jobLimit job
  deriving Decidable

/-- What a pass over one Job leaves to the others. -/
structure RestoredOne (a a' : SchedulerActor) (jobId : JobId) : Prop where
  config : a'.config = a.config
  jobs : ∀ id, id ≠ jobId → a'.jobs.get id = a.jobs.get id
  len : a.ready.len ≤ a'.ready.len
  count : ∀ id, id ≠ jobId → a'.ready.countJob id = a.ready.countJob id

/-- The other Jobs are no more stranded than before. -/
theorem RestoredOne.stranded {id : JobId} {job : JobEntry} (h : RestoredOne a a' jobId)
    (hid : id ≠ jobId) (hs : Stranded a' id job) : Stranded a id job := by
  obtain ⟨he, hp, hn, hb, hr, hlen, hcount⟩ := hs
  unfold jobLimit at hcount
  rw [h.count id hid] at hcount
  rw [h.config] at hlen hcount
  have := h.len
  exact ⟨he, hp, hn, hb, hr, by omega, hcount⟩

section RestoreJob

theorem restoreJob_one (hs : JobsSound env a) (hr : RunsOnce env (.idle a)) :
    RestoredOne a (a.restoreJob env jobId) jobId := by
  unfold restoreJob
  split
  · exact ⟨rfl, fun _ _ => rfl, Nat.le_refl _, fun _ _ => rfl⟩
  · rename_i job hj
    obtain ⟨moved, rest, -, h⟩ := restoreLoop_restored (a.jobLimit job) job.blocked.length none hr hj
      (hs.jobs jobId job hj).own
    generalize restoreLoop env jobId (a.jobLimit job) job.blocked.length none a = result at h
    have hsame : RestoredOne a result.2 jobId := by
      refine ⟨h.holding.config, h.holding.other, by rw [h.len]; omega, fun id hid => ?_⟩
      rw [h.count id, if_neg hid, Nat.add_zero]
    -- setting the timer touches neither the queue nor another Job
    have htimer : ∀ next, RestoredOne a (result.2.scheduleNormal env jobId next .normal) jobId := by
      intro next
      refine ⟨?_, fun id hid => ?_, ?_, fun id hid => ?_⟩
      · rw [config_scheduleNormal, hsame.config]
      · rw [get_jobs_scheduleNormal, if_neg hid, hsame.jobs id hid]
      · rw [ready_scheduleNormal]
        exact hsame.len
      · rw [ready_scheduleNormal, hsame.count id hid]
    unfold resumeJob
    dsimp only
    split
    · exact hsame
    · split
      · split
        · exact hsame
        · split
          · exact htimer _
          · exact hsame
      · exact hsame

/-- **One Job of the pass**: unless it is stranded, it keeps its timer or its list. -/
theorem JobsSound.restoreJob (hs : JobsSound env a) (hr : RunsOnce env (.idle a))
    (hg : ∀ job, a.jobs.get jobId = some job → ¬ Stranded a jobId job) :
    JobsSound env (a.restoreJob env jobId) := by
  unfold SchedulerActor.restoreJob
  split
  · exact hs
  · rename_i job hj
    have hjob := hs.jobs jobId job hj
    obtain ⟨moved, rest, hsplit, h⟩ := restoreLoop_restored (a.jobLimit job) job.blocked.length none
      hr hj hjob.own
    have hsub : ∀ p ∈ rest, p ∈ job.blocked := fun p hp => by
      rw [hsplit]
      exact mem_append_right _ hp
    have hsound : ∀ key next, (job.state = .enabled → job.Periodic → next ≠ none ∨ rest ≠ []) →
        ({ job with normalTimerKey := key, nextRunAt := next, blocked := rest } : JobEntry).Sound
          env.croner jobId := by
      intro key next ha
      refine hjob.hold key (fun p hp => hjob.own p (hsub p hp)) (fun hper hne => ?_)
        (fun hper p hp => hjob.waits hper p (hsub p hp)) ha
      by_contra hidle
      have hempty := hjob.parked hper hidle
      rw [hsplit] at hempty
      exact hne (append_eq_nil_iff.mp hempty).2
    unfold resumeJob
    dsimp only
    rw [h.holding.self]
    dsimp only
    split
    · rename_i hcond
      obtain ⟨hrest, hnext, he, hper⟩ := hcond
      rw [hrest, append_nil] at hsplit
      rcases h.resume with ⟨p, hp, -, hres, hfrom⟩ | ⟨hno, -⟩
      · -- the timer follows the last trigger execution that came back
        obtain ⟨next, hn⟩ := (hjob.waits hper p (by rw [hsplit]; exact hp)).resumes hres
        rw [hfrom]
        dsimp only
        rw [hn]
        exact hs.holding_scheduled h.holding next .normal fun key =>
          hsound (some key) (some next) fun _ _ => .inl (Option.some_ne_none _)
      · have hblocked : job.blocked ≠ [] := (hjob.armed he hper).resolve_left (· hnext)
        have hall : currentRuns job moved = job.blocked.length := by
          rw [hsplit]
          refine countP_eq_length.mpr fun p hp => decide_eq_true ?_
          exact (hjob.waits hper p (by rw [hsplit]; exact hp)).version
        have hroom := h.room (hsplit ▸ hblocked)
        rw [hall] at hroom
        refine absurd ⟨he, hper, hnext, hblocked, fun p hp => ?_, hroom⟩ (hg job hj)
        exact hno p (hsplit ▸ hp) (hjob.waits hper p hp).version
    · rename_i hcond
      refine hs.holding h.holding (hsound job.normalTimerKey job.nextRunAt fun he hper => ?_)
      by_contra hneither
      rw [not_or, not_not, not_not] at hneither
      exact hcond ⟨hneither.2, hneither.1, he, hper⟩

theorem RunsOnce.restoreJob (hr : RunsOnce env (.idle a)) (jobId : JobId) :
    RunsOnce env (.idle (a.restoreJob env jobId)) :=
  hr.steps (restoreJob_steps trivial trivial jobId)

theorem JobsSound.restoreJobs : ∀ (jobIds : List JobId), jobIds.Nodup → ∀ {a : SchedulerActor},
    JobsSound env a → RunsOnce env (.idle a) →
    (∀ id ∈ jobIds, ∀ job, a.jobs.get id = some job → ¬ Stranded a id job) →
    JobsSound env (a.restoreJobs env jobIds)
  | [], _, _, hs, _, _ => hs
  | jobId :: rest, hnodup, a, hs, hr, hg => by
    obtain ⟨hnot, hnodup⟩ := nodup_cons.mp hnodup
    have hone : RestoredOne a (a.restoreJob env jobId) jobId := restoreJob_one hs hr
    refine JobsSound.restoreJobs rest hnodup (hs.restoreJob hr (hg jobId mem_cons_self))
      (hr.restoreJob jobId) fun id hid job hj hstranded => ?_
    have hne : id ≠ jobId := fun he => hnot (he ▸ hid)
    rw [hone.jobs id hne] at hj
    exact hg id (mem_cons_of_mem _ hid) job hj (hone.stranded hne hstranded)

/-- **The pass**, from a state in which no Job is stranded. -/
theorem JobsSound.restoreBlocked (hs : JobsSound env a) (hr : RunsOnce env (.idle a))
    (hg : ∀ id job, a.jobs.get id = some job → ¬ Stranded a id job) :
    JobsSound env (a.restoreBlocked env) := by
  unfold SchedulerActor.restoreBlocked
  split
  · exact hs
  · exact JobsSound.restoreJobs _ a.jobs.nodup hs hr fun id _ => hg id

end RestoreJob

/-! ## 3. Whole runs -/

/-- The times `next_after` may be asked about for a Job: a reading of the clock, the planned time
    of its timer, an occurrence that has passed. -/
inductive Asked (env : Env) (a : SchedulerActor) (jobId : JobId) (job : JobEntry) :
    DateTime → Prop where
  | reading (n : Nat) : Asked env a jobId job (env.clock n)
  | timer (key : Nat) (entry : TimerEntry) (h : a.timers.get key = some entry)
      (hj : entry.jobId = jobId) (hv : entry.version = job.version) (hk : entry.kind = .normal) :
      Asked env a jobId job entry.runAt
  | occurrence (n : Nat) (t next : DateTime)
      (h : nextAfter env.croner job.trigger.schedule t = .ok (some next))
      (hn : next ≤ env.clock n) : Asked env a jobId job next

/-- `next_after` does not fail for the schedules in use. -/
def NextNeverFails (env : Env) (a : SchedulerActor) : Prop :=
  ∀ jobId job, a.jobs.get jobId = some job → job.state = .enabled → job.Periodic →
    ∀ t, Asked env a jobId job t → job.trigger.schedule.Continues env.croner t

theorem NextNeverFails.timerGoesOn (h : NextNeverFails env a) {key : Nat} {entry : TimerEntry}
    (he : a.timers.get key = some entry) : TimerGoesOn env a entry := by
  intro job hj hv hs hp
  have hask := h entry.jobId job hj hs hp
  refine ⟨⟨fun n => hask _ (.reading n), fun n t next ht hn => hask _ (.occurrence n t next ht hn)⟩,
    fun hk => ?_⟩
  exact hask _ (.timer key entry he rfl hv.symm hk)

/-- When the pass after the message begins, no Job is stranded. -/
def RestoreGuard (env : Env) (a : SchedulerActor) (message : Message) : Prop :=
  ∀ e ∈ (a.handle env message).jobs.entries, ¬ Stranded (a.handle env message) e.1 e.2
  deriving Decidable

/-- What holds between two messages. -/
structure PeriodicInv (env : Env) (a : SchedulerActor) : Prop where
  jobs : JobsSound env a
  runs : RunsOnce env (.idle a)

namespace PeriodicInv

theorem handle (h : PeriodicInv env a) (message : Message) (hn : NextNeverFails env a) :
    PeriodicInv env (a.handle env message) where
  jobs := h.jobs.handle message fun _ _ he => hn.timerGoesOn he
  runs := h.runs.handle message

/-- Before the wait: the pass, then dispatch. -/
theorem settle (h : PeriodicInv env a)
    (hg : ∀ id job, a.jobs.get id = some job → ¬ Stranded a id job) :
    PeriodicInv env (a.settle env) where
  jobs := by
    have hdispatch : Steps env (· ≠ .work) (.idle (a.restoreBlocked env)) (.idle (a.settle env)) :=
      dispatchLoop_steps (by simp) (by simp) _ _
    exact hdispatch.keep (fun m => JobsSound env m.actor) (fun _ _ _ hk hs hi => hi.step hs hk)
      (h.jobs.restoreBlocked h.runs hg)
  runs := h.runs.settle

theorem turn (h : PeriodicInv env a) (message : Message) (hn : NextNeverFails env a)
    (hg : RestoreGuard env a message) : PeriodicInv env (a.turn env message) := by
  unfold SchedulerActor.turn
  split
  · exact h
  · dsimp only
    split
    · exact h.handle message hn
    · exact (h.handle message hn).settle fun id job hj => hg (id, job) (get_eq_some_iff.mp hj)

theorem initial {config : SchedulerConfig} (hc : validateConfig config = .ok ()) :
    PeriodicInv env (start env config) where
  jobs := ⟨validateConfig_interval hc, fun _ _ hj => by cases hj⟩
  runs := .initial config

end PeriodicInv

/-- **A periodic Job goes on**: in every run in which `next_after` does not fail and no restore pass
    begins with a stranded Job, every enabled Interval or Cron Job has a timer or work it holds
    back, in every state. -/
theorem periodic_armed_while_guarded (env : Env) (config : SchedulerConfig)
    (messages : List Message) (hc : validateConfig config = .ok ())
    (h : Along (turn env) (fun a message => NextNeverFails env a ∧ RestoreGuard env a message)
      (start env config) messages) :
    Throughout (turn env) (fun a => ∀ jobId job, a.jobs.get jobId = some job → job.Armed)
      (start env config) messages :=
  throughout_of_invariant
    (fun a message (hi : PeriodicInv env a) hok => hi.turn message hok.1 hok.2)
    (fun _ hi jobId job hj => (hi.jobs.jobs jobId job hj).armed) (.initial hc) h

section Runs

/-- One-shot, or an interval of at most a quarter of an hour. -/
def Schedule.short : Schedule → Bool
  | .once _ => true
  | .interval every _ => decide (every ≤ 900 * 10 ^ 9)
  | .cron _ _ => false

/-- All schedules are short and all timers near. -/
def NearFuture (a : SchedulerActor) : Prop :=
  (∀ job ∈ a.jobs.values, job.trigger.schedule.short = true) ∧
    ∀ entry ∈ a.timers.entries.values, (0 : Int) ≤ entry.runAt ∧ (10 ^ 12 : Int) ≥ entry.runAt
  deriving Decidable

theorem ticking_clock (n : Nat) :
    (0 : Int) ≤ Env.ticking.clock n ∧ (10 ^ 10 : Int) ≥ Env.ticking.clock n := by
  show (0 : Int) ≤ ((min n 100 * 10 ^ 8 : Nat) : Int) ∧ ((min n 100 * 10 ^ 8 : Nat) : Int) ≤ 10 ^ 10
  omega

/-- Far from the end of chrono's range nothing overflows. -/
theorem continues_short {cr : Croner} {every : Nat} {startAt : Option DateTime} {t : Int}
    (he : every ≤ 900 * 10 ^ 9) (hlow : -8334601228800000000000 ≤ t) (hhigh : t ≤ 10 ^ 12) :
    (Schedule.interval every startAt).Continues cr t := by
  refine continues_interval_iff.mpr ⟨?_, inRange_iff.mpr ⟨by omega, by omega⟩⟩
  show (every : Int) ≤ (2 ^ 63 - 1) * 10 ^ 6
  omega

theorem nextNeverFails_of_nearFuture (h : NearFuture a) : NextNeverFails .ticking a := by
  intro jobId job hj _ hp t hask
  have hshort := h.1 job (mem_values_iff.mpr ⟨jobId, hj⟩)
  cases hs : job.trigger.schedule with
  | once =>
    have hp : job.trigger.schedule.isOnce = false := hp
    rw [hs] at hp
    cases hp
  | cron =>
    rw [hs] at hshort
    cases hshort
  | interval every =>
    rw [hs] at hshort
    have hevery : every ≤ 900 * 10 ^ 9 := of_decide_eq_true hshort
    cases hask with
    | reading n =>
      have := ticking_clock n
      exact continues_short hevery (by omega) (by omega)
    | timer key entry he =>
      have := h.2 entry (mem_values_iff.mpr ⟨key, he⟩)
      exact continues_short hevery (by omega) (by omega)
    | occurrence n t₀ _ hnext hle =>
      have hhigh := Int.le_trans hle (ticking_clock n).2
      have hlow := (inRange_iff.mp (inRange_of_nextAfter hs hnext)).1
      exact continues_short hevery hlow (by omega)

def archive : TaskBinding := ⟨⟨"archive", .action, "home"⟩, .cooperative⟩

/-- One slot, and room for one waiting execution. -/
def oneWaiting : SchedulerConfig := { globalConcurrency := Nat.toPNat' 1, globalMaxPending := 1 }

def everyMillis (ms : Nat) : Trigger := ⟨.interval (ms * 10 ^ 6) none, .fireOnce, none⟩

def withRetry : JobOptions :=
  { coalescing := some .keepAll, capacity := some .backpressure
    retry := .exponential (Nat.toPNat' 3) (500 * 10 ^ 6) (500 * 10 ^ 6) {} }

def archiveRun (jobId runId scheduledMs : Nat) : SpawnedTask :=
  ⟨jobId, 1, runId, 1, scheduledMs * 10 ^ 6, archive.inner, none, .cooperative⟩

/-- The first Job fails and waits for its retry; the second one takes the slot and fills the queue.
    Then the timer of the first Job and its retry expire together, and both are held back. The
    queue has room for one at a time: the trigger execution comes back first, and starts. -/
def trickle : List Message :=
  [.command (.add (some 1) 1 true (everyMillis 900) archive withRetry),
   .expired [0],
   .completion (archiveRun 1 0 0) 0 (.finished (.taskTransient "disk full")),
   .command (.add (some 2) 1 true (everyMillis 300) archive withRetry),
   .expired [3],
   .expired [4],
   .expired [1, 2],
   .completion (archiveRun 2 1 500) 0 (.finished .completed),
   .command .list,
   .completion (archiveRun 2 2 800) 0 (.finished .completed)]

/-- Until then the Job has its retry in the list. -/
theorem periodic_armed_while_retry_waits : validateConfig oneWaiting = .ok () ∧
      Along (turn .ticking)
        (fun a message => NextNeverFails .ticking a ∧ RestoreGuard .ticking a message)
        (start .ticking oneWaiting) trickle ∧
      Throughout (turn .ticking) (fun a => ∀ jobId job, a.jobs.get jobId = some job → job.Armed)
        (start .ticking oneWaiting) trickle := by
  have hnear : Along (turn .ticking)
      (fun a message => NearFuture a ∧ RestoreGuard .ticking a message)
      (start .ticking oneWaiting) trickle := by decide +kernel
  have h : Along (turn .ticking)
      (fun a message => NextNeverFails .ticking a ∧ RestoreGuard .ticking a message)
      (start .ticking oneWaiting) trickle :=
    along_mono (fun _ _ hok => ⟨nextNeverFails_of_nearFuture hok.1, hok.2⟩) hnear
  exact ⟨by decide, h, periodic_armed_while_guarded .ticking oneWaiting trickle (by decide) h⟩

/-- **A periodic Job stops.** The next pass restores the retry alone. Nothing tells it when the
    timer is due, so none is set: the Job is enabled, and will never fire again. -/
theorem restored_retry_strands_job : validateConfig oneWaiting = .ok () ∧
      Along (turn .ticking) (fun a _ => NextNeverFails .ticking a) (start .ticking oneWaiting)
        (trickle ++ [.command .list]) ∧
      ((after .ticking oneWaiting (trickle ++ [.command .list])).jobs.get 1).map
        (fun job => (job.state, job.trigger.schedule.isOnce, job.nextRunAt, job.blocked)) =
        some (.enabled, false, none, []) := by
  refine ⟨by decide, ?_, by decide +kernel⟩
  have hnear : Along (turn .ticking) (fun a _ => NearFuture a) (start .ticking oneWaiting)
      (trickle ++ [.command .list]) := by decide +kernel
  exact along_mono (fun _ _ hok => nextNeverFails_of_nearFuture hok) hnear

end Runs

end Smalux.Scheduler
