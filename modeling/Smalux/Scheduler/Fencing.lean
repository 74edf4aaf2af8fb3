/-
  Subject:   What the late result of an old execution can do to its Job.

  A result is compared with its Job by version. That fences off old executions as long as versions
  only grow; a Job that is deleted and installed again starts over at the caller's generation.

  * `SpawnedTask.outdated` -- read off the event log: the Job has changed since the task started;
  * `Fenced` -- the result of an outdated task only gives its slots back;
  * `FenceChange` -- what a step can do to tasks, versions and the log;
  * `GenerationGuard` -- a Job is installed only at a generation above every version that one of its
    unfinished executions carries;
  * **`fenced_while_guarded`** -- in every run whose installs meet it, every state is fenced;
  * **`version_identifies`** -- while a Job keeps its version, nothing has changed it.
-/
import Smalux.Scheduler.Simulation

namespace Smalux.Scheduler

open Lib SchedulerActor Table List Option

variable {id : JobId} {version : Nat}

variable {env : Env} {a a' : SchedulerActor}

/-! ## 1. Outdated executions -/

/-- The event announces the start of the task. -/
def SpawnedTask.startedBy (task : SpawnedTask) : SchedulerEventKind → Bool
  | .executionStarted jobId version runId attempt _ =>
    decide (jobId = task.jobId ∧ version = task.version ∧ runId = task.runId ∧
      attempt = task.attempt)
  | _ => false

/-- Going back from the newest event, the Job was added, updated, enabled, disabled or deleted
    after the task started. -/
def SpawnedTask.outdated (task : SpawnedTask) : List SchedulerEvent → Bool
  | [] => false
  | event :: older =>
    if task.startedBy event.kind then false
    else if event.kind.mutated = some task.jobId then true
    else task.outdated older

/-- The result of an outdated task, whatever it is, changes nothing of the Job but the two fields
    of `releaseEntry`, and neither timers nor waiting work. -/
def Fenced (env : Env) (a : SchedulerActor) : Prop :=
  ∀ task ∈ a.tasks, task.outdated a.events = true → ∀ elapsed outcome,
    let a' := ({ a with tasks := a.tasks.erase task }).handleCompletion env
      (task.completion elapsed outcome)
    a'.jobs = a.jobs.modify task.jobId (releaseEntry (a.now env)) ∧ a'.timers = a.timers ∧
      a'.retryTimers = a.retryTimers ∧ a'.ready = a.ready

/-- No unfinished task is ahead of its Job, and one at the Job's version is not outdated. -/
def TasksFenced (a : SchedulerActor) : Prop :=
  ∀ task ∈ a.tasks, ∀ job, a.jobs.get task.jobId = some job →
    task.version ≤ job.version ∧ (task.version = job.version → task.outdated a.events = false)

theorem TasksFenced.fenced (h : TasksFenced a) : Fenced env a := by
  intro task ht hout elapsed outcome
  have hold : (a.released env task).atVersion task.jobId task.version = false := by
    by_contra hne
    obtain ⟨job', hj', hv⟩ := atVersion_iff.mp (Bool.eq_true_of_not_eq_false hne)
    obtain ⟨job, hj, rfl⟩ := get_modify_self hj'
    have hfresh := (h task ht job hj).2 hv.symm
    rw [hout] at hfresh
    cases hfresh
  have hcompletion : ({ a with tasks := a.tasks.erase task }).handleCompletion env
      (task.completion elapsed outcome) = a.released env task :=
    (handleCompletion_eq env _ _).trans (if_neg (Bool.eq_false_iff.mp hold))
  rw [hcompletion]
  exact ⟨rfl, rfl, rfl, rfl⟩

/-- New events that are about other Jobs outdate nothing. -/
theorem SpawnedTask.outdated_of_append {task : SpawnedTask} {older : List SchedulerEvent} :
    ∀ {newer : List SchedulerEvent}, (∀ e ∈ newer, e.kind.mutated ≠ some task.jobId) →
      task.outdated (newer ++ older) = true → task.outdated older = true
  | [], _, h => h
  | e :: newer, hn, h => by
    rw [cons_append, SpawnedTask.outdated] at h
    split at h
    · cases h
    · rw [if_neg (hn e mem_cons_self)] at h
      exact SpawnedTask.outdated_of_append (fun e he => hn e (mem_cons_of_mem _ he)) h

/-! ## 2. What a step does to tasks, versions and the log -/

/-- No task is added; all new events, and all changes of versions, are about the one Job. -/
structure FenceKept (jobId : Option JobId) (a a' : SchedulerActor) : Prop where
  tasks : ∀ task ∈ a'.tasks, task ∈ a.tasks
  events : ∃ newer, a'.events = newer ++ a.events ∧
    ∀ e ∈ newer, ∀ id, e.kind.mutated = some id → jobId = some id
  jobs : ∀ id job', a'.jobs.get id = some job' → jobId ≠ some id →
    ∃ job, a.jobs.get id = some job ∧ job'.version = job.version

namespace FenceKept

variable {jobId : Option JobId}

theorem refl (jobId : Option JobId) (a : SchedulerActor) : FenceKept jobId a a :=
  ⟨fun _ ht => ht, ⟨[], rfl, nofun⟩,
    fun _ job hj _ => ⟨job, hj, rfl⟩⟩

theorem trans {a'' : SchedulerActor} (h : FenceKept jobId a a') (h' : FenceKept jobId a' a'') :
    FenceKept jobId a a'' := by
  refine ⟨fun task ht => h.tasks task (h'.tasks task ht), ?_, fun id job'' hj hid => ?_⟩
  · obtain ⟨newer, he, hn⟩ := h.events
    obtain ⟨newer', he', hn'⟩ := h'.events
    refine ⟨newer' ++ newer, by rw [he', he, append_assoc], fun e hm => ?_⟩
    rcases mem_append.mp hm with hm | hm
    · exact hn' e hm
    · exact hn e hm
  · obtain ⟨job', hj', he'⟩ := h'.jobs id job'' hj hid
    obtain ⟨job, hj, he⟩ := h.jobs id job' hj' hid
    exact ⟨job, hj, he'.trans he⟩

theorem emit {kind : SchedulerEventKind} (hk : ∀ id, kind.mutated = some id → jobId = some id) :
    FenceKept jobId a (a.emit env kind) := by
  refine { refl jobId a with events := ⟨[_], rfl, fun e he => ?_⟩ }
  rw [mem_singleton.mp he]
  exact hk

/-- Another Job, or no version, is changed. -/
theorem modifyJob {f : JobEntry → JobEntry}
    (hf : jobId = some id ∨ ∀ job, (f job).version = job.version) :
    FenceKept jobId a (a.modifyJob id f) := by
  refine { refl jobId a with jobs := fun id' job' hj hid => ?_ }
  have hj : (a.jobs.modify id f).get id' = some job' := hj
  rw [get_modify] at hj
  split at hj
  · rename_i he
    obtain ⟨job, hget, rfl⟩ := map_eq_some_iff.mp hj
    rcases hf with hf | hf
    · exact absurd (he ▸ hf) hid
    · exact ⟨job, hget, hf job⟩
  · exact ⟨job', hj, rfl⟩

theorem scheduleNormal (id : JobId) (runAt : DateTime) (kind : TimerKind) :
    FenceKept jobId a (a.scheduleNormal env id runAt kind) := by
  unfold SchedulerActor.scheduleNormal
  split
  · exact refl jobId a
  · rename_i job hj
    have h₁ : FenceKept jobId a
        { a with
          timers := (a.timers.removeKey job.normalTimerKey).insertAt ⟨id, job.version, runAt, kind⟩ } :=
      { refl jobId a with }
    have h₂ : FenceKept jobId a (SchedulerActor.modifyJob _ id
        (scheduleEntry (a.timers.removeKey job.normalTimerKey).nextKey runAt)) :=
      h₁.trans (modifyJob (.inr fun _ => rfl))
    exact h₂.trans (emit fun _ hid => by cases hid)

theorem touch (h : Touch env id a a') : FenceKept (some id) a a' := by
  cases h with
  | tick | removeKey | clearRetries | setReady | cancel => exact { refl (some id) a with }
  | emit kind hk => exact emit fun id' hid => by rw [hk id' hid]
  | modifyJob => exact modifyJob (.inl rfl)
  | removeJob =>
    refine { refl (some id) a with jobs := fun id' job hj hid => ?_ }
    rw [get_remove] at hj
    split at hj
    · cases hj
    · exact ⟨job, hj, rfl⟩
  | scheduleNormal runAt kind => exact scheduleNormal id runAt kind

theorem touches (h : Touches env id a a') : FenceKept (some id) a a' := by
  induction h with
  | refl => exact refl _ a
  | tail _ ht ih => exact ih.trans (touch ht)

end FenceKept

/-- **What a step can do to tasks, versions and the log.** -/
inductive FenceChange (kind : StepKind) (a a' : SchedulerActor) : Prop where
  | kept (h : FenceKept none a a')
  | mutated (jobId : JobId) (h : FenceKept (some jobId) a a')
      (hv : ∀ job', a'.jobs.get jobId = some job' →
        ∃ job, a.jobs.get jobId = some job ∧ job.version < job'.version)
  | installed (jobId : JobId) (generation : Nat) (hk : kind = .install jobId generation)
      (h : FenceKept (some jobId) a a')
      (hv : ∀ job', a'.jobs.get jobId = some job' → job'.version = generation)
  | started (task : SpawnedTask) (event : SchedulerEvent) (job : JobEntry) (hk : kind = .start)
      (htasks : a'.tasks = a.tasks ++ [task]) (hevents : a'.events = event :: a.events)
      (hstart : task.startedBy event.kind = true) (hmut : event.kind.mutated = none)
      (hj : a.jobs.get task.jobId = some job) (hv : job.version = task.version)
      (hjobs : ∀ id job', a'.jobs.get id = some job' →
        ∃ job, a.jobs.get id = some job ∧ job'.version = job.version)

theorem fenceChange_of_step {kind : StepKind} {m m' : Machine} (hstep : Step env kind m m') :
    FenceChange kind m.actor m'.actor := by
  have hr := FenceKept.refl none m.actor
  cases hstep with
  | silent | configure | cancel | expire | ignore | fireRetry | clearRetries | draw | queue | drop
  | shrinkReady | forget => exact .kept { hr with }
  | emit _ kind hk =>
    exact .kept (.emit fun id hid => by
      cases kind <;> first | exact hk.elim | cases hid)
  | fire | block | dropReplaceable | unblock | succeed | fail | complete =>
    exact .kept (.modifyJob (.inr fun _ => rfl))
  | scheduleNormal _ jobId runAt kind => exact .kept (.scheduleNormal jobId runAt kind)
  | start _ p =>
    unfold spawnExecution
    split
    · exact .kept { hr with }
    · rename_i job hj
      split
      · exact .kept { hr with }
      · rename_i hv
        have hkept : FenceKept none m.actor
            (m.actor.modifyJob p.jobId (startEntry (m.actor.now env) p.scheduledAt)) :=
          .modifyJob (.inr fun _ => rfl)
        refine .started ⟨p.jobId, p.version, p.runId, p.attempt, p.scheduledAt, job.task,
          job.trigger.timeout, job.cancellationMode⟩ _ job rfl rfl rfl ?_ rfl hj
          (Decidable.not_not.mp hv) fun id job' hj' => ?_
        · simp [SpawnedTask.startedBy]
        · exact hkept.jobs id job' hj' (some_ne_none _).symm
  | finish _ task =>
    have hkept : FenceKept none m.actor
        (m.actor.modifyJob task.jobId (releaseEntry (m.actor.now env))) :=
      .modifyJob (.inr fun _ => rfl)
    exact .kept { hkept with tasks := fun t hm => mem_of_mem_erase hm }
  | lose => exact .kept { hr with tasks := fun t hm => mem_of_mem_erase hm }
  | retry _ task rest runAt =>
    have hkept : FenceKept none m.actor
        (SchedulerActor.emit env
          { m.actor with
            timers := _
            retryTimers := _ }
          (.retryScheduled task.jobId task.version task.runId (task.attempt + 1) runAt)) :=
      .emit fun _ hid => by cases hid
    exact .kept { hkept with }
  | rehash _ jobs hsame =>
    refine .kept { hr with jobs := fun id job hj _ => ⟨job, ?_, rfl⟩ }
    rw [← hsame.get_eq id]
    exact hj
  | disable _ jobId job reason hj =>
    refine .mutated jobId (.touches (.commitDisable _ jobId job _ reason)) fun job' hj' => ?_
    refine ⟨job, hj, ?_⟩
    rw [get_commitDisable, if_pos rfl] at hj'
    obtain ⟨_, -, rfl⟩ := map_eq_some_iff.mp hj'
    exact Nat.lt_succ_self _
  | update _ jobId job patch plan hj hv =>
    refine .mutated jobId (.touches (.commitUpdate patch plan hj)) fun job' hj' => ?_
    refine ⟨job, hj, ?_⟩
    rw [get_commitUpdate env patch plan hj, if_pos rfl] at hj'
    cases hj'
    rw [version_updatedEntry, hv]
    exact Nat.lt_succ_self _
  | enable _ jobId job now next hj =>
    refine .mutated jobId (.touches (.commitEnable _ jobId _ now next)) fun job' hj' => ?_
    refine ⟨job, hj, ?_⟩
    rw [get_commitEnable, if_pos rfl] at hj'
    obtain ⟨_, -, rfl⟩ := map_eq_some_iff.mp hj'
    exact Nat.lt_succ_self _
  | delete _ jobId job cancelRunning =>
    refine .mutated jobId (.touches (.commitDelete _ jobId job cancelRunning)) fun job' hj' => ?_
    rw [get_commitDelete, if_pos rfl] at hj'
    cases hj'
  | install _ jobId generation enabled trigger task options now firstRun =>
    have hins : FenceKept (some jobId) m.actor
        { m.actor with
          jobs := m.actor.jobs.insert jobId
            (newEntry generation enabled trigger task options now) } := by
      refine { FenceKept.refl (some jobId) m.actor with jobs := fun id job' hj' hid => ?_ }
      rw [get_insert, if_neg fun he => hid (congrArg some he.symm)] at hj'
      exact ⟨job', hj', rfl⟩
    refine .installed jobId generation rfl
      (hins.trans (.touches (.installJob _ jobId _ enabled firstRun))) fun job' hj' => ?_
    rw [get_installJob, if_pos rfl] at hj'
    cases hj'
    cases enabled <;> rfl

/-! ## 3. The fence stands -/

namespace TasksFenced

variable {kind : StepKind}

/-- **The fence stands** through every step, an install below an unfinished execution apart. -/
theorem change (h : TasksFenced a) (hc : FenceChange kind a a')
    (hi : ∀ jobId generation, kind = .install jobId generation →
      ∀ task ∈ a.tasks, task.jobId = jobId → task.version < generation) : TasksFenced a' := by
  -- a task whose Job is not the one that changes
  have hother : ∀ {jobId : Option JobId}, FenceKept jobId a a' → ∀ task ∈ a'.tasks,
      jobId ≠ some task.jobId → ∀ job', a'.jobs.get task.jobId = some job' →
      task.version ≤ job'.version ∧
        (task.version = job'.version → task.outdated a'.events = false) := by
    intro jobId hk task ht hne job' hj'
    obtain ⟨job, hj, hv⟩ := hk.jobs _ job' hj' hne
    obtain ⟨hle, hfresh⟩ := h task (hk.tasks task ht) job hj
    rw [hv]
    refine ⟨hle, fun he => ?_⟩
    obtain ⟨newer, hevents, hn⟩ := hk.events
    by_contra hout
    have hold := SpawnedTask.outdated_of_append (fun e hm hid => hne (hn e hm _ hid))
      (hevents ▸ Bool.eq_true_of_not_eq_false hout)
    rw [hfresh he] at hold
    cases hold
  cases hc with
  | kept hk => exact fun task ht job' => hother hk task ht (some_ne_none _).symm job'
  | mutated jobId hk hv =>
    intro task ht job' hj'
    by_cases hid : task.jobId = jobId
    · subst hid
      obtain ⟨job, hj, hlt⟩ := hv job' hj'
      have hle := (h task (hk.tasks task ht) job hj).1
      exact ⟨by omega, fun he => by omega⟩
    · exact hother hk task ht (fun he => hid (Option.some.inj he).symm) job' hj'
  | installed jobId generation hkind hk hv =>
    intro task ht job' hj'
    by_cases hid : task.jobId = jobId
    · subst hid
      have hlt := hi _ generation hkind task (hk.tasks task ht) rfl
      rw [hv job' hj']
      exact ⟨by omega, fun he => by omega⟩
    · exact hother hk task ht (fun he => hid (Option.some.inj he).symm) job' hj'
  | started new event job hkind htasks hevents hstart hmut hj hv hjobs =>
    intro task ht job' hj'
    obtain ⟨job₁, hj₁, hv₁⟩ := hjobs _ job' hj'
    rw [htasks] at ht
    rcases mem_append.mp ht with ht | ht
    · obtain ⟨hle, hfresh⟩ := h task ht job₁ hj₁
      rw [hv₁]
      refine ⟨hle, fun he => ?_⟩
      rw [hevents, SpawnedTask.outdated]
      split
      · rfl
      · rw [hmut, if_neg (some_ne_none _).symm]
        exact hfresh he
    · -- the new task is the newest thing that happened to its Job
      rw [mem_singleton.mp ht] at hj₁ ⊢
      rw [hj] at hj₁
      cases hj₁
      refine ⟨by omega, fun _ => ?_⟩
      rw [hevents, SpawnedTask.outdated, if_pos hstart]

end TasksFenced

/-- Unless one starts, no task is added. -/
theorem FenceChange.tasks {kind : StepKind} (h : FenceChange kind a a') (hs : kind ≠ .start) :
    ∀ task ∈ a'.tasks, task ∈ a.tasks := by
  cases h with
  | kept hk | mutated _ hk | installed _ _ _ hk => exact hk.tasks
  | started _ _ _ hk => exact absurd hk hs

/-- A Job is installed only at a generation above the version of each of its unfinished
    executions. -/
def GenerationGuard (env : Env) (a : SchedulerActor) (message : Message) : Prop :=
  ∀ install ∈ message.installs env a, ∀ task ∈ a.tasks, task.jobId = install.1 →
    task.version < install.2
  deriving Decidable

namespace TasksFenced

theorem handle (h : TasksFenced a) (message : Message) (hg : GenerationGuard env a message) :
    TasksFenced (a.handle env message) := by
  have hsteps : Steps env
      (fun kind => kind ≠ .start ∧ ∀ jobId generation, kind = .install jobId generation →
        ∀ task ∈ a.tasks, task.jobId = jobId → task.version < generation) (.idle a)
      (.idle (a.handle env message)) :=
    handle_steps message fun _ hk => ⟨hk.start, fun _ _ he => hg _ (hk.install _ _ he)⟩
  have hkeep := hsteps.keep
    (fun m => TasksFenced m.actor ∧ ∀ task ∈ m.actor.tasks, task ∈ a.tasks)
    (fun kind m m' hok hstep hi => ?_) ⟨h, fun _ ht => ht⟩
  · exact hkeep.1
  · have hchange := fenceChange_of_step hstep
    refine ⟨hi.1.change hchange fun jobId generation he task ht => ?_, fun task ht => ?_⟩
    · exact hok.2 jobId generation he task (hi.2 task ht)
    · exact hi.2 task (hchange.tasks hok.1 task ht)

theorem settle (h : TasksFenced a) : TasksFenced (a.settle env) := by
  have hsteps : Steps env (fun kind => ∀ jobId generation, kind ≠ .install jobId generation)
      (.idle a) (.idle (a.settle env)) := settle_steps (by simp) (by simp) (by simp) a
  exact hsteps.keep (fun m => TasksFenced m.actor)
    (fun kind m m' hok hstep hi => hi.change (fenceChange_of_step hstep)
      fun jobId generation he => absurd he (hok jobId generation)) h

theorem turn (h : TasksFenced a) (message : Message) (hg : GenerationGuard env a message) :
    TasksFenced (a.turn env message) :=
  turn_keeps TasksFenced (h.handle message hg) (fun _ ha => ha.settle) h

end TasksFenced

/-- **Old executions are fenced off**: in every run in which Jobs are installed only at generations
    above those of their unfinished executions, the result of an execution that started before the
    Job's last change only gives its slots back, in every state. -/
theorem fenced_while_guarded (env : Env) (config : SchedulerConfig) (messages : List Message)
    (h : Along (turn env) (GenerationGuard env) (start env config) messages) :
    Throughout (turn env) (Fenced env) (start env config) messages := by
  refine throughout_of_invariant
    (fun a message (hi : TasksFenced a) hg => hi.turn message hg) (fun a hi => hi.fenced) ?_ h
  exact fun task ht => absurd ht not_mem_nil

section Reinstalled

def backup : TaskBinding := ⟨⟨"backup", .action, "home"⟩, .cooperative⟩

def everyMinute : Trigger := ⟨.interval (60 * 10 ^ 9) none, .fireOnce, none⟩

def threeSlots : SchedulerConfig := { globalConcurrency := Nat.toPNat' 3 }

/-- The first execution of Job 1, at version 1. -/
def backupTask : SpawnedTask := ⟨1, 1, 0, 1, 0, backup.inner, none, .cooperative⟩

/-- Job 1 is deleted while an execution of it runs, and installed again at the given generation. -/
def reinstalledAt (generation : Nat) : List Message :=
  [.command (.add (some 1) 1 true everyMinute backup {}), .expired [0], .command (.delete 1 1),
   .command (.add (some 1) generation true everyMinute backup {})]

theorem fenced_at_next_generation :
    Along (turn .still) (GenerationGuard .still) (start .still threeSlots) (reinstalledAt 2) ∧
      Throughout (turn .still) (Fenced .still) (start .still threeSlots) (reinstalledAt 2) := by
  have h : Along (turn .still) (GenerationGuard .still) (start .still threeSlots)
      (reinstalledAt 2) := by decide +kernel
  exact ⟨h, fenced_while_guarded .still threeSlots (reinstalledAt 2) h⟩

/-- **An old result disables the new Job.** The execution of the deleted Job is still running; the
    new Job has its version. The permanent error of the old execution disables the new Job. -/
theorem old_result_disables_new_job :
    backupTask ∈ (after .still threeSlots (reinstalledAt 1)).tasks ∧
      backupTask.outdated (after .still threeSlots (reinstalledAt 1)).events = true ∧
      ((after .still threeSlots (reinstalledAt 1)).jobs.get 1).map (·.state) = some .enabled ∧
      ((after .still threeSlots (reinstalledAt 1 ++
        [.completion backupTask 0 (.finished (.taskPermanent "no space left"))])).jobs.get 1).map
          (·.state) = some (.disabled "no space left") ∧
      ¬ Fenced .still (after .still threeSlots (reinstalledAt 1)) := by
  have htask : backupTask ∈ (after .still threeSlots (reinstalledAt 1)).tasks := by decide +kernel
  have hout : backupTask.outdated (after .still threeSlots (reinstalledAt 1)).events = true := by
    decide +kernel
  refine ⟨htask, hout, by decide +kernel, by decide +kernel, fun h => ?_⟩
  have hjobs := (h backupTask htask hout 0 (.finished (.taskPermanent "no space left"))).1
  have hstate := congrArg (fun t => (t.get 1).map (·.version)) hjobs
  revert hstate
  decide +kernel

end Reinstalled

/-! ## 4. Versions -/

/-- The Job was there before, at no higher version; at the same one, nothing in between has
    announced a change of it. -/
def VersionKept (id : JobId) (a a' : SchedulerActor) : Prop :=
  ∀ job', a'.jobs.get id = some job' → ∃ job, a.jobs.get id = some job ∧
    job.version ≤ job'.version ∧ (job'.version = job.version →
      ∃ newer, a'.events = newer ++ a.events ∧ ∀ e ∈ newer, e.kind.mutated ≠ some id)

theorem VersionKept.trans {a'' : SchedulerActor} (h : VersionKept id a a')
    (h' : VersionKept id a' a'') : VersionKept id a a'' := by
  intro job'' hj''
  obtain ⟨job', hj', hle', hsame'⟩ := h' job'' hj''
  obtain ⟨job, hj, hle, hsame⟩ := h job' hj'
  refine ⟨job, hj, by omega, fun he => ?_⟩
  obtain ⟨newer', he', hn'⟩ := hsame' (by omega)
  obtain ⟨newer, he, hn⟩ := hsame (by omega)
  refine ⟨newer' ++ newer, by rw [he', he, append_assoc], fun e hm => ?_⟩
  exact (mem_append.mp hm).elim (hn' e) (hn e)

theorem FenceChange.versionKept {kind : StepKind} (h : FenceChange kind a a')
    (hi : ∀ generation, kind ≠ .install id generation) : VersionKept id a a' := by
  have hother : ∀ {jobId : Option JobId}, FenceKept jobId a a' → jobId ≠ some id →
      VersionKept id a a' := by
    intro jobId hk hne job' hj'
    obtain ⟨job, hj, hv⟩ := hk.jobs id job' hj' hne
    obtain ⟨newer, he, hn⟩ := hk.events
    exact ⟨job, hj, hv.ge, fun _ => ⟨newer, he, fun e hm hid => hne (hn e hm id hid)⟩⟩
  cases h with
  | kept hk => exact hother hk (some_ne_none _).symm
  | mutated jobId hk hv =>
    by_cases hid : jobId = id
    · intro job' hj'
      obtain ⟨job, hj, hlt⟩ := hv job' (hid ▸ hj')
      exact ⟨job, hid ▸ hj, hlt.le, fun he => absurd he hlt.ne'⟩
    · exact hother hk fun he => hid (Option.some.inj he)
  | installed jobId generation hkind hk =>
    exact hother hk fun he => hi generation (Option.some.inj he ▸ hkind)
  | started task event _ _ _ hevents _ hmut _ _ hjobs =>
    intro job' hj'
    obtain ⟨job, hj, hv⟩ := hjobs id job' hj'
    refine ⟨job, hj, hv.ge, fun _ => ⟨[event], hevents, fun e hm => ?_⟩⟩
    rw [mem_singleton.mp hm, hmut]
    exact (some_ne_none _).symm

/-- **A version stands for one state of the Job**: along every run that does not install the Job,
    from any state on, its version never falls, and as long as it stays the same no update,
    enabling, disabling or deletion of the Job has been announced. -/
theorem version_identifies (env : Env) (a : SchedulerActor) (messages : List Message) (id : JobId)
    (h : Along (turn env) (fun a message => ∀ install ∈ message.installs env a, install.1 ≠ id) a
      messages) : VersionKept id a (run (turn env) a messages) := by
  refine run_invariant (fun b message hb hg => ?_) messages a
    (fun job hj => ⟨job, hj, Nat.le_refl _, fun _ => ⟨[], rfl, by simp⟩⟩) h
  have hsteps : Steps env (fun kind => ∀ g, kind ≠ .install id g) (.idle b) _ :=
    turn_steps message (fun _ hk _ he => hg _ (hk.install _ _ he) rfl) (by simp) (by simp) (by simp)
  exact hsteps.keep (fun m => VersionKept id a m.actor)
    (fun _ _ _ hk hs hi => hi.trans ((fenceChange_of_step hs).versionKept hk)) hb

theorem version_kept_over_expiry : VersionKept 1 (after .still threeSlots
      [.command (.add (some 1) 1 true everyMinute backup {})])
    (after .still threeSlots ((reinstalledAt 1).take 2)) :=
  version_identifies .still _ [.expired [0]] 1 (by decide +kernel)

end Smalux.Scheduler
