/-
  Subject:   A rule for what commands keep (management.rs).

  Whatever a command asks for, the actor changes its Jobs in six ways: it installs, updates,
  enables, disables or deletes one, or drops the waiting work of a Job it then fails to enable.
  A property that each of these keeps, under what has been checked before, is kept by every command
  (`CommandRule.handleCommand`), a reconcile plan that stops half way included.
-/
import Smalux.Scheduler.Loop

namespace Smalux.Scheduler

open Lib SchedulerActor List

/-- Jobs, timers, waiting and running executions are the same; events may have been added, clock,
    configuration and counters may differ. -/
structure WorkAlike (a a' : SchedulerActor) : Prop where
  jobs : a'.jobs = a.jobs
  timers : a'.timers = a.timers
  retryTimers : a'.retryTimers = a.retryTimers
  ready : a'.ready = a.ready
  tasks : a'.tasks = a.tasks
  running : a'.running = a.running
  issued : a'.issued = a.issued
  events : a.events <:+ a'.events

namespace WorkAlike

variable {a a' a'' : SchedulerActor}

theorem refl (a : SchedulerActor) : WorkAlike a a :=
  ⟨rfl, rfl, rfl, rfl, rfl, rfl, rfl, suffix_refl _⟩

theorem trans (h : WorkAlike a a') (h' : WorkAlike a' a'') : WorkAlike a a'' where
  jobs := h'.jobs.trans h.jobs
  timers := h'.timers.trans h.timers
  retryTimers := h'.retryTimers.trans h.retryTimers
  ready := h'.ready.trans h.ready
  tasks := h'.tasks.trans h.tasks
  running := h'.running.trans h.running
  issued := h'.issued.trans h.issued
  events := h.events.trans h'.events

theorem tick (a : SchedulerActor) : WorkAlike a a.tick := { refl a with }

theorem panic (a : SchedulerActor) : WorkAlike a { a with panicked := true } := { refl a with }

theorem emit (env : Env) (a : SchedulerActor) (kind : SchedulerEventKind) :
    WorkAlike a (a.emit env kind) :=
  { refl a with events := suffix_cons _ _ }

end WorkAlike

/-- The patches of a command that passes its checks. -/
def Command.revises (env : Env) (a : SchedulerActor) : Command → List (JobId × JobPatch)
  | .update jobId expectedVersion patch =>
    if (a.planJobUpdate env jobId expectedVersion patch).isOk then [(jobId, patch)] else []
  | .reconcile plan =>
    if (a.checkPlan env plan).1.isOk then
      plan.updates.map fun update => (update.jobId, update.patch)
    else []
  | _ => []

/-- The Jobs a command may update, enable, disable or delete. -/
def Command.mutates (env : Env) (a : SchedulerActor) : Command → List JobId
  | .update jobId _ _ => [jobId]
  | .enable jobId _ => [jobId]
  | .disable jobId _ _ => [jobId]
  | .delete jobId _ => [jobId]
  | .reconcile plan => plan.updates.map (·.jobId) ++ plan.deletions.map Prod.fst
  | .updateConfig _ patch =>
    (a.jobs.entries.filter fun e =>
      ({ a with config := applyConfigPatch a.config patch }).violatesLimits env e.2).map Prod.fst
  | _ => []

/-- The Jobs a command installs when it passes its checks, with their first version. -/
def Command.installs (env : Env) (a : SchedulerActor) : Command → List (JobId × Nat)
  | .add jobId generation _ trigger task options =>
    if a.addAccepted env jobId trigger task options then [(a.addTarget env jobId, generation)]
    else []
  | .reconcile plan =>
    if (a.checkPlan env plan).1.isOk then
      plan.additions.map fun addition => (addition.jobId, 1)
    else []
  | _ => []

/-- The Job has just been updated. -/
def JustUpdated (env : Env) (a : SchedulerActor) (id : JobId) : Prop :=
  ∃ (b : SchedulerActor) (job : JobEntry) (expectedVersion : Nat) (patch : JobPatch)
    (plan : JobUpdatePlan), b.planJobUpdate env id expectedVersion patch = .ok plan ∧
    b.jobs.get id = some job ∧ a = b.tick.commitUpdate env id patch plan job

/-- `P` is kept by what the command, sent in the state `start`, may do. -/
structure CommandRule (env : Env) (start : SchedulerActor) (command : Command)
    (P : SchedulerActor → Prop) : Prop where
  silent : ∀ {a} config configRevision ticks jobsIssued, P a →
    (config = a.config ∨
      validateConfig config = .ok () ∧ ∃ revision patch, command = .updateConfig revision patch) →
    P { a with
      config := config, configRevision := configRevision, ticks := ticks, jobsIssued := jobsIssued }
  announce : ∀ {a} revision, P a → P (a.emit env (.schedulerConfigUpdated revision))
  install : ∀ {a id generation} enabled trigger task options now firstRun,
    (id, generation) ∈ command.installs env start → a.jobs.get id = none →
    validateTrigger env.croner trigger options a.config = .ok () →
    validateTaskCancellationMode trigger task.cancellationMode = .ok () → P a →
    P (a.installJob env id (newEntry generation enabled trigger task options now) enabled firstRun)
  update : ∀ {a id job expectedVersion patch plan}, (id, patch) ∈ command.revises env start →
    a.planJobUpdate env id expectedVersion patch = .ok plan → a.jobs.get id = some job → P a →
    P (a.tick.commitUpdate env id patch plan job)
  drop : ∀ {a id job}, id ∈ command.mutates env start → a.jobs.get id = some job →
    job.state ≠ .enabled → P a → P (a.dropWork id)
  enable : ∀ {a id job} next, id ∈ command.mutates env start →
    (command = .enable id job.version ∨ JustUpdated env a id) →
    a.jobs.get id = some job → job.state ≠ .enabled → job.version < u64Max → P a →
    P ((a.dropWork id).tick.commitEnable env id (job.version + 1) (a.now env) next)
  disable : ∀ {a id job} reason, id ∈ command.mutates env start → a.jobs.get id = some job →
    job.version < u64Max → P a → P (a.commitDisable env id job (job.version + 1) reason)
  delete : ∀ {a id job}, id ∈ command.mutates env start → a.jobs.get id = some job → P a →
    P (a.commitDelete env id job true)

theorem updateJob_ok {env : Env} {a a' : SchedulerActor} {jobId : JobId} {expectedVersion : Nat}
    {patch : JobPatch} {snapshot : JobSnapshot}
    (h : a.updateJob env jobId expectedVersion patch = (.ok snapshot, a')) :
    snapshot.id = jobId ∧ JustUpdated env a' jobId := by
  unfold updateJob at h
  split at h
  · cases h
  · cases h
  · rename_i plan job hplan hj
    dsimp only at h
    split at h <;> cases h
    exact ⟨rfl, a, job, _, patch, plan, hplan, hj, rfl⟩

namespace CommandRule

variable {env : Env} {start a : SchedulerActor} {command : Command} {P : SchedulerActor → Prop}
  {jobId : JobId}

section

variable (h : CommandRule env start command P) (ha : P a)
include h ha

theorem tick : P a.tick :=
  h.silent a.config a.configRevision (a.ticks + 1) a.jobsIssued ha (.inl rfl)

theorem addJob (requestedId : Option JobId) (generation : Nat) (enabled : Bool)
    (trigger : Trigger) (task : TaskBinding) (options : JobOptions)
    (hi : a.addAccepted env requestedId trigger task options = true →
      (a.addTarget env requestedId, generation) ∈ command.installs env start) :
    P (a.addJob env requestedId generation enabled trigger task options).2 := by
  have hacc : ∀ {first}, ¬ a.config.maxJobs ≤ a.jobs.len →
      validateTrigger env.croner trigger options a.config = .ok () →
      validateTaskCancellationMode trigger task.cancellationMode = .ok () →
      a.jobs.get (a.addTarget env requestedId) = none →
      firstRunAt env.croner trigger (a.now env) = .ok first →
      (a.addTarget env requestedId, generation) ∈ command.installs env start := by
    intro first hl ht hm hn hf
    refine hi ?_
    rw [addAccepted, ht, hm, hf, Table.contains_eq_false_iff.mpr hn, decide_eq_true (by omega)]
    rfl
  unfold SchedulerActor.addJob
  split
  · exact ha
  · rename_i hl
    split
    · exact ha
    · rename_i ht
      split
      · exact ha
      · rename_i hm
        cases requestedId with
        | some id =>
          dsimp only
          split
          · exact h.tick ha
          · rename_i hc
            have hn : a.tick.jobs.get id = none :=
              Table.contains_eq_false_iff.mp (by simpa using hc)
            split
            · exact h.tick ha
            · rename_i hf
              exact h.install enabled trigger task options _ _ (hacc hl ht hm hn hf) hn ht hm
                (h.tick ha)
        | none =>
          dsimp only
          have hn := freshJobId_get env a.jobs a.jobsIssued
          have hd := h.silent a.config a.configRevision (a.ticks + 1)
            (freshJobId env a.jobs a.jobs.len a.jobsIssued).2 ha (.inl rfl)
          split
          · exact hd
          · rename_i hf
            exact h.install enabled trigger task options _ _ (hacc hl ht hm hn hf) hn ht hm hd

theorem updateJob {patch : JobPatch} (expectedVersion : Nat)
    (hp : (a.planJobUpdate env jobId expectedVersion patch).isOk = true →
      (jobId, patch) ∈ command.revises env start) :
    P (a.updateJob env jobId expectedVersion patch).2 := by
  unfold SchedulerActor.updateJob
  split
  · exact h.tick ha
  · exact h.tick ha
  · rename_i plan job hplan hj
    have hcommit := h.update (hp (by rw [hplan]; rfl)) hplan hj ha
    dsimp only
    split <;> exact hcommit

theorem enableJob (hm : jobId ∈ command.mutates env start) (version : Nat)
    (hwhy : command = .enable jobId version ∨ JustUpdated env a jobId) :
    P (a.enableJob env jobId version).2 := by
  have hres := enableJob_result env a jobId version
  generalize a.enableJob env jobId version = r at hres
  cases hres with
  | refused | already => exact ha
  | dropped job e hj hv hs => exact h.tick (h.drop hm hj hs ha)
  | enabled job entry next hj hv hs hl =>
    subst hv
    exact h.enable next hm hwhy hj hs hl ha

theorem forceDisable (hm : jobId ∈ command.mutates env start) (reason : String) :
    P (a.forceDisable env jobId reason).2 := by
  rcases forceDisable_cases env a jobId reason with ⟨he, -⟩ | ⟨job, hj, hl, he⟩
  · rw [he]
    exact ha
  · rw [he]
    exact h.disable reason hm hj hl ha

theorem disableJob (hm : jobId ∈ command.mutates env start) (version : Nat) (reason : String) :
    P (a.disableJob env jobId version reason).2 := by
  have hres := disableJob_result env a jobId version reason
  generalize a.disableJob env jobId version reason = r at hres
  cases hres with
  | refused => exact ha
  | disabled job hj hv hl =>
    subst hv
    exact h.disable reason hm hj hl ha

theorem deleteJob (hm : jobId ∈ command.mutates env start) (expectedVersion : Nat) :
    P (a.deleteJob env jobId expectedVersion true).2 := by
  unfold SchedulerActor.deleteJob
  split
  · exact ha
  · rename_i job hc
    exact h.delete hm (checkVersion_ok hc).1 ha

end

/-! ## The reconcile plan -/

theorem checkUpdates (h : CommandRule env start command P) :
    ∀ (updates : List SchedulerReconcileUpdate)
    (touched : List JobId) {a : SchedulerActor}, P a → P (a.checkUpdates env touched updates).2
  | [], _, _, ha => ha
  | update :: rest, touched, a, ha => by
    unfold SchedulerActor.checkUpdates
    split
    · exact ha
    · split
      · exact h.tick ha
      · exact checkUpdates h rest _ (h.tick ha)

theorem checkPlan (h : CommandRule env start command P) (ha : P a) (plan : SchedulerReconcilePlan) :
    P (a.checkPlan env plan).2 := by
  have hupdates := h.checkUpdates plan.updates (plan.deletions.map Prod.fst) ha
  unfold SchedulerActor.checkPlan
  dsimp only
  split
  · exact ha
  · split <;> rename_i hu <;> rw [hu] at hupdates
    · exact hupdates
    · split
      · exact hupdates
      · split <;> exact hupdates

/-- What each operation keeps, the loop over a list of them keeps. -/
theorem forEach {α : Type} (P : SchedulerActor → Prop)
    (f : SchedulerActor → α → Except SchedulerError Unit × SchedulerActor) :
    ∀ (xs : List α), (∀ x ∈ xs, ∀ a, P a → P (f a x).2) → ∀ {a}, P a →
      P (SchedulerActor.forEach f xs a).2
  | [], _, _, ha => ha
  | x :: xs, hf, a, ha => by
    have hx := hf x mem_cons_self a ha
    unfold SchedulerActor.forEach
    split <;> rename_i he <;> rw [he] at hx
    · exact hx
    · exact forEach P f xs (fun y hy => hf y (mem_cons_of_mem _ hy)) hx

theorem applyUpdate (h : CommandRule env start command P) {update : SchedulerReconcileUpdate}
    (hp : (update.jobId, update.patch) ∈ command.revises env start)
    (hm : update.jobId ∈ command.mutates env start) (ha : P a) :
    P (a.applyUpdate env update).2 := by
  have hupdate := h.updateJob ha update.expectedVersion fun _ => hp
  unfold SchedulerActor.applyUpdate
  split
  · rename_i hu
    rw [hu] at hupdate
    exact hupdate
  · rename_i snapshot a' hu
    rw [hu] at hupdate
    obtain ⟨hid, hjust⟩ := updateJob_ok hu
    rw [hid]
    split
    · exact h.enableJob hupdate hm snapshot.version (.inr hjust)
    · split
      · exact h.disableJob hupdate hm snapshot.version _
      · exact hupdate

theorem reconcileJobs {plan : SchedulerReconcilePlan} (h : CommandRule env a (.reconcile plan) P)
    (ha : P a) : P (a.reconcileJobs env plan).2 := by
  have hcheck := h.checkPlan ha plan
  unfold SchedulerActor.reconcileJobs
  split
  · rename_i hc
    rw [hc] at hcheck
    exact hcheck
  · rename_i a' hc
    rw [hc] at hcheck
    have hok : (a.checkPlan env plan).1.isOk = true := by rw [hc]; rfl
    -- updates, then deletions, then additions; a failure ends the plan
    have hupdates := forEach P (SchedulerActor.applyUpdate env) plan.updates (fun update hu b hb =>
      h.applyUpdate (by simp only [Command.revises, hok, if_true]; exact mem_map.mpr ⟨update, hu, rfl⟩)
        (mem_append_left _ (mem_map_of_mem hu)) hb) hcheck
    have hdeletions := fun b (hb : P b) => forEach P (applyDeletion env) plan.deletions
      (fun deletion hd b hb => h.deleteJob hb
        (mem_append_right _ (mem_map_of_mem hd)) deletion.2) hb
    have hadditions := fun b (hb : P b) => forEach P (applyAddition env) plan.additions
      (fun addition hx b hb => h.addJob hb (some addition.jobId) 1 addition.enabled addition.trigger
        addition.task addition.options fun _ => by
          simp only [Command.installs, hok, if_true]
          exact mem_map_of_mem hx) hb
    have happly : P (a'.applyPlan env plan).2 := by
      unfold applyPlan
      split <;> rename_i hu <;> rw [hu] at hupdates
      · exact hupdates
      · have hd := hdeletions _ hupdates
        split <;> rename_i hr <;> rw [hr] at hd
        · exact hd
        · exact hadditions _ hd
    split <;> rename_i hr <;> rw [hr] at happly <;> exact happly

/-! ## The configuration -/

theorem forceDisableAll (h : CommandRule env start command P) (reason : String) :
    ∀ (jobIds : List JobId) {a : SchedulerActor}, (∀ id ∈ jobIds, id ∈ command.mutates env start) →
      P a → P (a.forceDisableAll env reason jobIds)
  | [], _, _, ha => ha
  | _ :: rest, _, hm, ha =>
    forceDisableAll h reason rest (fun id hid => hm id (mem_cons_of_mem _ hid))
      (h.forceDisable ha (hm _ mem_cons_self) reason)

theorem updateConfig {expectedRevision : Nat} {patch : SchedulerConfigPatch}
    (h : CommandRule env a (.updateConfig expectedRevision patch) P) (ha : P a) :
    P (a.updateConfig env expectedRevision patch).2 := by
  unfold SchedulerActor.updateConfig
  split
  · exact ha
  · split
    · exact ha
    · split
      · exact ha
      · rename_i hvalid _ revision _
        have hconfig := h.silent (applyConfigPatch a.config patch) revision a.ticks a.jobsIssued ha
          (.inr ⟨hvalid, _, _, rfl⟩)
        exact h.announce _ (h.forceDisableAll "scheduler safety limits changed" _
          (fun _ hid => hid) hconfig)

/-- **The rule**: every command keeps `P`. -/
theorem handleCommand (h : CommandRule env a command P) (ha : P a) :
    P (a.handleCommand env command).2 := by
  cases command with
  | add jobId generation enabled trigger task options =>
    refine h.addJob ha jobId generation enabled trigger task options fun hacc => ?_
    simp only [Command.installs, hacc, if_true]
    exact mem_singleton_self _
  | update jobId expectedVersion =>
    refine h.updateJob ha expectedVersion fun hok => ?_
    simp only [Command.revises, hok, if_true]
    exact mem_singleton_self _
  | get | list | getConfig => exact ha
  | enable jobId expectedVersion =>
    exact h.enableJob ha (mem_singleton_self _) expectedVersion (.inl rfl)
  | disable jobId expectedVersion reason =>
    exact h.disableJob ha (mem_singleton_self _) expectedVersion reason
  | delete jobId expectedVersion => exact h.deleteJob ha (mem_singleton_self _) expectedVersion
  | reconcile => exact h.reconcileJobs ha
  | updateConfig => exact h.updateConfig ha

end CommandRule

end Smalux.Scheduler
