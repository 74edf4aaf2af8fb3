/-
  Subject:   What the actor can do, step by step.

  The handlers of the actor are long; what they do to the state is a sequence of few small steps.
  `Step` lists them. Beside the actor, a state of this machine (`Machine`) shows what a handler
  holds in its local variables: timers taken out of the queue (`popped`), executions on their way
  into the queue (`held`) and the execution whose result is being handled (`finished`). Between two
  turns all three are empty.

  An invariant of the actor is proved once per step; that every handler is such a sequence of steps
  is proved in `Scheduler/Simulation.lean`, once.

  Steps come in kinds. A `mutation` of a Job disables it at a new version or removes it, a `revise`
  updates or enables it, which happens only when asked for, an `install` adds it;
  an `expire` takes a timer out of the queue; a `start` starts an execution; a `work` step moves an
  execution on its way, or takes a timer or held-back work away from a Job; an `outcome` marks a
  one-shot Job as completed.
-/
import Mathlib.Logic.Relation
import Smalux.Scheduler.Loop

namespace Smalux.Scheduler

open Lib SchedulerActor ReadyQueue

/-- The actor and the local variables of its handler. -/
structure Machine where
  actor : SchedulerActor
  popped : List (Nat × TimerEntry)
  held : List PendingExecution
  finished : List SpawnedTask

/-- The actor between two turns. -/
def Machine.idle (a : SchedulerActor) : Machine := ⟨a, [], [], []⟩

inductive StepKind where
  | plain
  | configure
  | expire
  | work
  | start
  | outcome (jobId : JobId)
  | mutation (jobId : JobId)
  | revise (jobId : JobId)
  | install (jobId : JobId) (generation : Nat)
  deriving DecidableEq, Repr

/-- The Job whose version or existence the event announces. -/
def SchedulerEventKind.mutated : SchedulerEventKind → Option JobId
  | .jobAdded jobId _ => some jobId
  | .jobUpdated jobId _ => some jobId
  | .jobEnabled jobId _ => some jobId
  | .jobDisabled jobId _ _ => some jobId
  | .jobDeleted jobId _ => some jobId
  | _ => none

/-- `task` is the execution the event names. -/
def SpawnedTask.is (task : SpawnedTask) (jobId : JobId) (version : Nat) (runId : RunId) : Prop :=
  task.jobId = jobId ∧ task.version = version ∧ task.runId = runId

/-- The events a handler emits on their own: about the execution whose result it handles, or about
    no execution that has started. Starts, retries, timers and mutations have steps of their own. -/
def SchedulerEventKind.reportable (finished : List SpawnedTask) : SchedulerEventKind → Prop
  | .executionSucceeded jobId version runId attempt _ =>
    ∃ task ∈ finished, task.is jobId version runId ∧ task.attempt = attempt
  | .executionFailed jobId version runId attempt _ _ =>
    ∃ task ∈ finished, task.is jobId version runId ∧ task.attempt = attempt
  | .executionTimedOut jobId version runId attempt =>
    ∃ task ∈ finished, task.is jobId version runId ∧ task.attempt = attempt
  | .executionPanicked jobId version runId attempt _ =>
    ∃ task ∈ finished, task.is jobId version runId ∧ task.attempt = attempt
  | .executionCancelled jobId version runId => ∃ task ∈ finished, task.is jobId version runId
  | .outputDelivered jobId version runId => ∃ task ∈ finished, task.is jobId version runId
  | .callbackFailed jobId version runId _ => ∃ task ∈ finished, task.is jobId version runId
  | .outputChannelClosed jobId version runId => ∃ task ∈ finished, task.is jobId version runId
  | .triggerSkipped _ _ _ _ => True
  | .executionQueued _ _ _ _ => True
  | .pendingReplaced _ _ _ => True
  | .backpressureApplied _ _ => True
  | .schedulerConfigUpdated _ => True
  | _ => False

/-- A timer that `handle_timer` ignores. -/
def Ignored (a : SchedulerActor) (entry : TimerEntry) : Prop :=
  ∀ job, a.jobs.get entry.jobId = some job → job.version ≠ entry.version ∨ job.state ≠ .enabled

/-- The execution a retry timer stands for. -/
def TimerEntry.retryOf (entry : TimerEntry) (runId : RunId) (scheduledAt : DateTime) (attempt : Nat)
    (priority : JobPriority) (batchId : Nat) : PendingExecution where
  jobId := entry.jobId
  version := entry.version
  runId := runId
  attempt := attempt
  scheduledAt := scheduledAt
  kind := .retry
  priority := priority
  batchId := batchId

/-- One step of the machine. -/
inductive Step (env : Env) : StepKind → Machine → Machine → Prop where
  /-- fields no invariant of the Jobs and queues reads -/
  | silent (m : Machine) (configRevision batchSequence ticks jobsIssued : Nat) (panicked : Bool) :
      Step env .plain m
        { m with
          actor :=
            { m.actor with
              configRevision := configRevision, batchSequence := batchSequence, ticks := ticks
              jobsIssued := jobsIssued, panicked := panicked } }
  | configure (m : Machine) (config : SchedulerConfig) (hc : validateConfig config = .ok ()) :
      Step env .configure m { m with actor := { m.actor with config := config } }
  | emit (m : Machine) (kind : SchedulerEventKind) (h : kind.reportable m.finished) :
      Step env .plain m { m with actor := m.actor.emit env kind }
  | cancel (m : Machine) (jobId : JobId) (version : Nat) :
      Step env .plain m { m with actor := m.actor.cancelJobVersion jobId version }
  -- timers
  | expire (m : Machine) (key : Nat) (entry : TimerEntry)
      (h : m.actor.timers.get key = some entry) :
      Step env .expire m
        { m with
          actor := { m.actor with timers := m.actor.timers.tryRemove key }
          popped := m.popped ++ [(key, entry)] }
  | ignore (m : Machine) (key : Nat) (entry : TimerEntry) (rest : List (Nat × TimerEntry))
      (hp : m.popped = (key, entry) :: rest) (h : Ignored m.actor entry) :
      Step env .plain m { m with popped := rest }
  | fire (m : Machine) (key : Nat) (entry : TimerEntry) (rest : List (Nat × TimerEntry))
      (job : JobEntry) (hp : m.popped = (key, entry) :: rest)
      (hj : m.actor.jobs.get entry.jobId = some job) (hv : job.version = entry.version)
      (he : job.state = .enabled) (hk : entry.kind = .normal ∨ entry.kind = .runNow) :
      Step env .work m
        { m with actor := m.actor.modifyJob entry.jobId clearNormalTimer, popped := rest }
  | fireRetry (m : Machine) (key : Nat) (entry : TimerEntry) (rest : List (Nat × TimerEntry))
      (job : JobEntry) (runId : RunId) (scheduledAt : DateTime) (attempt batchId : Nat)
      (hp : m.popped = (key, entry) :: rest) (hj : m.actor.jobs.get entry.jobId = some job)
      (hv : job.version = entry.version) (he : job.state = .enabled)
      (hk : entry.kind = .retry runId scheduledAt attempt) :
      Step env .plain m
        { m with
          actor := { m.actor with retryTimers := m.actor.retryTimers.remove runId }
          popped := rest
          held := entry.retryOf runId scheduledAt attempt job.priority batchId :: m.held }
  | scheduleNormal (m : Machine) (jobId : JobId) (runAt : DateTime) (kind : TimerKind)
      (hk : kind = .normal ∨ kind = .runNow) :
      Step env .plain m { m with actor := m.actor.scheduleNormal env jobId runAt kind }
  | clearRetries (m : Machine) (jobId : JobId) :
      Step env .plain m { m with actor := m.actor.clearRetryTimers jobId }
  -- executions on their way
  | draw (m : Machine) (p : PendingExecution) (hid : p.runId = env.runIds m.actor.issued)
      (ha : p.attempt = 1) :
      Step env .work m
        { m with
          actor := { m.actor with issued := m.actor.issued + 1 }
          held := p :: m.held }
  | queue (m : Machine) (p : PendingExecution) (rest : List PendingExecution)
      (hh : m.held = p :: rest) :
      Step env .work m
        { m with actor := { m.actor with ready := m.actor.ready.insert p }, held := rest }
  | block (m : Machine) (p : PendingExecution) (rest : List PendingExecution)
      (hh : m.held = p :: rest) :
      Step env .work m
        { m with actor := m.actor.modifyJob p.jobId (pushBlocked p), held := rest }
  | drop (m : Machine) (p : PendingExecution) (rest : List PendingExecution)
      (hh : m.held = p :: rest) : Step env .work m { m with held := rest }
  | shrinkReady (m : Machine) (ready : ReadyQueue)
      (h : ∀ runId p, ready.pending.get runId = some p →
        m.actor.ready.pending.get runId = some p) :
      Step env .plain m { m with actor := { m.actor with ready := ready } }
  | dropReplaceable (m : Machine) (jobId : JobId) :
      Step env .work m { m with actor := m.actor.modifyJob jobId dropReplaceable }
  | unblock (m : Machine) (jobId : JobId) (job : JobEntry) (p : PendingExecution)
      (rest : List PendingExecution) (hj : m.actor.jobs.get jobId = some job)
      (hb : job.blocked = p :: rest) :
      Step env .work m
        { m with actor := m.actor.modifyJob jobId popBlocked, held := p :: m.held }
  -- running executions
  | start (m : Machine) (p : PendingExecution) (ready : ReadyQueue)
      (hp : m.actor.ready.pending.get p.runId = some p)
      (hr : ready.pending = m.actor.ready.pending.remove p.runId)
      (hc : m.actor.canRun p = true)
      (hg : m.actor.totalRunning < (m.actor.config.globalConcurrency : Nat)) :
      Step env .start m
        { m with actor := ({ m.actor with ready := ready }).spawnExecution env p }
  | finish (m : Machine) (task : SpawnedTask) (h : task ∈ m.actor.tasks) :
      Step env .plain m
        { m with
          actor :=
            ({ m.actor with tasks := m.actor.tasks.erase task }).release env task.jobId task.runId
          finished := task :: m.finished }
  | lose (m : Machine) (task : SpawnedTask) :
      Step env .plain m
        { m with actor := { m.actor with tasks := m.actor.tasks.erase task } }
  | retry (m : Machine) (task : SpawnedTask) (rest : List SpawnedTask) (runAt : DateTime)
      (hf : m.finished = task :: rest) (hv : m.actor.atVersion task.jobId task.version = true) :
      Step env .plain m
        { m with
          actor :=
            m.actor.scheduleRetry env task.jobId task.version task.runId task.scheduledAt
              (task.attempt + 1) runAt
          finished := rest }
  | forget (m : Machine) (task : SpawnedTask) (rest : List SpawnedTask)
      (hf : m.finished = task :: rest) : Step env .plain m { m with finished := rest }
  | succeed (m : Machine) (jobId : JobId) (hp : m.popped = []) :
      Step env (.outcome jobId) m { m with actor := m.actor.modifyJob jobId successEntry }
  | fail (m : Machine) (jobId : JobId) (error : String) (count : Bool) :
      Step env .plain m { m with actor := m.actor.modifyJob jobId (failEntry error count) }
  | complete (m : Machine) (jobId : JobId) (now : DateTime) (job : JobEntry) (hp : m.popped = [])
      (hj : m.actor.jobs.get jobId = some job) (ho : job.trigger.schedule.isOnce = true) :
      Step env (.outcome jobId) m { m with actor := m.actor.modifyJob jobId (completeEntry now) }
  -- the Job table
  | rehash (m : Machine) (jobs : Table JobId JobEntry) (h : m.actor.jobs.SameContent jobs) :
      Step env .plain m { m with actor := { m.actor with jobs := jobs } }
  | disable (m : Machine) (jobId : JobId) (job : JobEntry) (reason : String)
      (hj : m.actor.jobs.get jobId = some job) :
      Step env (.mutation jobId) m
        { m with actor := m.actor.commitDisable env jobId job (job.version + 1) reason }
  | update (m : Machine) (jobId : JobId) (job : JobEntry) (patch : JobPatch) (plan : JobUpdatePlan)
      (hj : m.actor.jobs.get jobId = some job) (hv : plan.nextVersion = job.version + 1)
      (hplan : ∃ a : SchedulerActor, a.config = m.actor.config ∧ a.jobs = m.actor.jobs ∧
        a.planJobUpdate env jobId job.version patch = .ok plan) :
      Step env (.revise jobId) m
        { m with actor := m.actor.commitUpdate env jobId patch plan job }
  | enable (m : Machine) (jobId : JobId) (job : JobEntry) (now next : DateTime)
      (hj : m.actor.jobs.get jobId = some job) (hs : job.state ≠ .enabled) :
      Step env (.revise jobId) m
        { m with
          actor :=
            (m.actor.dropWork jobId).tick.commitEnable env jobId (job.version + 1) now next }
  | delete (m : Machine) (jobId : JobId) (job : JobEntry) (cancelRunning : Bool)
      (hj : m.actor.jobs.get jobId = some job) :
      Step env (.mutation jobId) m
        { m with actor := m.actor.commitDelete env jobId job cancelRunning }
  | install (m : Machine) (jobId : JobId) (generation : Nat) (enabled : Bool) (trigger : Trigger)
      (task : TaskBinding) (options : JobOptions) (now firstRun : DateTime)
      (hj : m.actor.jobs.get jobId = none)
      (hv : validateTrigger env.croner trigger options m.actor.config = .ok ()) :
      Step env (.install jobId generation) m
        { m with
          actor :=
            m.actor.installJob env jobId (newEntry generation enabled trigger task options now)
              enabled firstRun }

/-- Any number of steps, all of a kind that `ok` allows. -/
def Steps (env : Env) (ok : StepKind → Prop) : Machine → Machine → Prop :=
  Relation.ReflTransGen fun m m' => ∃ kind, ok kind ∧ Step env kind m m'

namespace Steps

variable {env : Env} {ok : StepKind → Prop} {m m' m'' : Machine}

theorem refl : Steps env ok m m := Relation.ReflTransGen.refl

theorem trans (h : Steps env ok m m') (h' : Steps env ok m' m'') : Steps env ok m m'' :=
  Relation.ReflTransGen.trans h h'

theorem one {kind : StepKind} (hok : ok kind) (h : Step env kind m m') : Steps env ok m m' :=
  Relation.ReflTransGen.single ⟨kind, hok, h⟩

/-- **The invariant rule**: what every allowed step keeps, a sequence of them keeps. -/
theorem keep (h : Steps env ok m m') (Inv : Machine → Prop)
    (hstep : ∀ kind m m', ok kind → Step env kind m m' → Inv m → Inv m') (hi : Inv m) : Inv m' := by
  induction h with
  | refl => exact hi
  | tail _ hs ih =>
    obtain ⟨kind, hok, hs⟩ := hs
    exact hstep kind _ _ hok hs ih

end Steps

/-! ## What a mutation touches

A mutation is one step, because only at its end do versions, timers and waiting work fit together
again. What does not depend on versions is kept by each of the small changes it is made of. -/

/-- The same execution, apart from the version and the priority it waits with. -/
def PendingExecution.SameRun (p p' : PendingExecution) : Prop :=
  p.runId = p'.runId ∧ p.attempt = p'.attempt ∧ p.jobId = p'.jobId ∧ p.kind = p'.kind

/-- The Job keeps its slots, and its waiting work unless it is dropped. -/
def JobEntry.Carries (job job' : JobEntry) : Prop :=
  job'.runningCount = job.runningCount ∧
    (job'.blocked = [] ∨ ∃ g : PendingExecution → PendingExecution,
      (∀ p, (g p).SameRun p) ∧ job'.blocked = job.blocked.map g)

theorem JobEntry.Carries.of_same {job job' : JobEntry} (hr : job'.runningCount = job.runningCount)
    (hb : job'.blocked = job.blocked) : job.Carries job' :=
  ⟨hr, .inr ⟨id, fun _ => ⟨rfl, rfl, rfl, rfl⟩, hb.trans (List.map_id _).symm⟩⟩

/-- One of the changes a mutation of the Job is made of. -/
inductive Touch (env : Env) (jobId : JobId) (a : SchedulerActor) : SchedulerActor → Prop where
  | tick : Touch env jobId a a.tick
  | emit (kind : SchedulerEventKind) (h : ∀ id, kind.mutated = some id → id = jobId) :
      Touch env jobId a (a.emit env kind)
  | removeKey (key : Option Nat) :
      Touch env jobId a { a with timers := a.timers.removeKey key }
  | clearRetries : Touch env jobId a (a.clearRetryTimers jobId)
  | setReady (ready : ReadyQueue)
      (h : ∀ r p, ready.pending.get r = some p →
        ∃ p', a.ready.pending.get r = some p' ∧ p.SameRun p') :
      Touch env jobId a { a with ready := ready }
  | cancel (version : Nat) : Touch env jobId a (a.cancelJobVersion jobId version)
  | modifyJob (f : JobEntry → JobEntry)
      (h : ∀ job, a.jobs.get jobId = some job → job.Carries (f job)) :
      Touch env jobId a (a.modifyJob jobId f)
  | removeJob : Touch env jobId a { a with jobs := a.jobs.remove jobId }
  | scheduleNormal (runAt : DateTime) (kind : TimerKind) (hk : kind = .normal ∨ kind = .runNow) :
      Touch env jobId a (a.scheduleNormal env jobId runAt kind)

/-- Any number of such changes. -/
def Touches (env : Env) (jobId : JobId) : SchedulerActor → SchedulerActor → Prop :=
  Relation.ReflTransGen (Touch env jobId)

namespace Touches

variable {env : Env} {jobId : JobId} {a₀ a : SchedulerActor} {job : JobEntry}

theorem refl (a : SchedulerActor) : Touches env jobId a a := Relation.ReflTransGen.refl

section

variable (h : Touches env jobId a₀ a)
include h

theorem emit (kind : SchedulerEventKind) (hk : kind.mutated = some jobId) :
    Touches env jobId a₀ (a.emit env kind) :=
  h.tail (.emit kind fun _ hid => Option.some.inj (hid.symm.trans hk))

theorem tick : Touches env jobId a₀ a.tick := h.tail .tick

theorem removeKey (key : Option Nat) :
    Touches env jobId a₀ { a with timers := a.timers.removeKey key } := h.tail (.removeKey key)

theorem clearRetryTimers : Touches env jobId a₀ (a.clearRetryTimers jobId) := h.tail .clearRetries

theorem cancelJobVersion (version : Nat) :
    Touches env jobId a₀ (a.cancelJobVersion jobId version) := h.tail (.cancel version)

theorem removeReady : Touches env jobId a₀ { a with ready := (a.ready.removeJob jobId).2 } :=
  h.tail (.setReady _ fun _ p hp => ⟨p, get_retain_some hp, rfl, rfl, rfl, rfl⟩)

theorem modifyJob {f : JobEntry → JobEntry}
    (hf : ∀ job, a.jobs.get jobId = some job → job.Carries (f job)) :
    Touches env jobId a₀ (a.modifyJob jobId f) := h.tail (.modifyJob f hf)

theorem scheduleNormal (runAt : DateTime) {kind : TimerKind}
    (hk : kind = .normal ∨ kind = .runNow) :
    Touches env jobId a₀ (a.scheduleNormal env jobId runAt kind) := h.tail (.scheduleNormal runAt kind hk)

end

theorem commitDisable (a : SchedulerActor) (jobId : JobId) (job : JobEntry) (version : Nat)
    (reason : String) : Touches env jobId a (a.commitDisable env jobId job version reason) := by
  have h₁ : Touches env jobId a { a.tick with timers := a.timers.removeKey job.normalTimerKey } :=
    ((refl a).tick).removeKey job.normalTimerKey
  have h₂ : Touches env jobId a (SchedulerActor.modifyJob _ jobId
      (disableEntry version reason (a.now env))) := h₁.modifyJob fun _ _ => ⟨rfl, .inl rfl⟩
  have h₃ := h₂.clearRetryTimers.removeReady
  exact (h₃.cancelJobVersion job.version).emit _ rfl

theorem commitDelete (a : SchedulerActor) (jobId : JobId) (job : JobEntry) (cancelRunning : Bool) :
    Touches env jobId a (a.commitDelete env jobId job cancelRunning) := by
  have h₁ : Touches env jobId a { a with jobs := a.jobs.remove jobId } :=
    (refl a).tail .removeJob
  have h₂ := (h₁.removeKey job.normalTimerKey).clearRetryTimers.removeReady
  refine emit ?_ _ rfl
  split
  · exact h₂.cancelJobVersion job.version
  · exact h₂

theorem updateReady (h : Touches env jobId a₀ a) (plan : JobUpdatePlan) (job : JobEntry) :
    Touches env jobId a₀ { a with ready := updateReady plan jobId job a.ready } := by
  refine h.tail (.setReady _ fun r p hp => ?_)
  unfold SchedulerActor.updateReady at hp
  split at hp
  · exact ⟨p, get_retain_some hp, rfl, rfl, rfl, rfl⟩
  · -- a migrated execution was there before
    have hmig : ∀ {q}, (a.ready.migrateJob jobId job.version job.priority).pending.get r = some q →
        ∃ p', a.ready.pending.get r = some p' ∧ q.SameRun p' := by
      intro q hq
      obtain ⟨p', hp', rfl⟩ := get_migrateJob_some hq
      refine ⟨p', hp', ?_⟩
      unfold ReadyQueue.restamp
      split <;> exact ⟨rfl, rfl, rfl, rfl⟩
    split at hp
    · exact hmig (get_retain_some hp)
    · exact hmig hp

theorem applyPatch (patch : JobPatch) (plan : JobUpdatePlan) (hj : a.jobs.get jobId = some job) :
    Touches env jobId a (a.applyPatch env jobId patch plan job) := by
  have h₁ : Touches env jobId a
      (({ a.tick with timers := a.timers.removeKey job.normalTimerKey }).clearRetryTimers jobId) :=
    (((refl a).tick).removeKey job.normalTimerKey).clearRetryTimers
  refine (h₁.updateReady plan (patchEntry patch plan (a.now env) job)).modifyJob
    fun job' hj' => ?_
  cases hj'.symm.trans hj
  unfold updateWork
  split
  · exact ⟨rfl, .inl rfl⟩
  · refine ⟨rfl, .inr ⟨_, ?_, rfl⟩⟩
    exact fun _ => ⟨rfl, rfl, rfl, rfl⟩

theorem scheduleUpdated (h : Touches env jobId a₀ a) (plan : JobUpdatePlan) (job : JobEntry) :
    Touches env jobId a₀ (a.scheduleUpdated env jobId plan job) := by
  unfold SchedulerActor.scheduleUpdated
  split
  · refine h.scheduleNormal _ ?_
    split
    · exact .inr rfl
    · exact .inl rfl
  · exact h

theorem cancelReplaced (h : Touches env jobId a₀ a) (plan : JobUpdatePlan) (job : JobEntry) :
    Touches env jobId a₀ (a.cancelReplaced jobId plan job) := by
  unfold SchedulerActor.cancelReplaced
  split
  · exact h.cancelJobVersion job.version
  · exact h

theorem commitUpdate (patch : JobPatch) (plan : JobUpdatePlan) (hj : a.jobs.get jobId = some job) :
    Touches env jobId a (a.commitUpdate env jobId patch plan job) :=
  (((applyPatch patch plan hj).scheduleUpdated plan job).cancelReplaced plan job).emit _ rfl

theorem commitEnable (a : SchedulerActor) (jobId : JobId) (version : Nat) (now next : DateTime) :
    Touches env jobId a ((a.dropWork jobId).tick.commitEnable env jobId version now next) := by
  have h₁ : Touches env jobId a (a.dropWork jobId).tick :=
    (refl a).removeReady.clearRetryTimers.tick
  have h₂ : Touches env jobId a ((a.dropWork jobId).tick.modifyJob jobId (enableEntry version now)) :=
    h₁.modifyJob fun _ _ => .of_same rfl rfl
  exact (h₂.scheduleNormal next (.inl rfl)).emit _ rfl

/-- A new Job, once it is in the table. -/
theorem installJob (a : SchedulerActor) (jobId : JobId) (entry : JobEntry) (enabled : Bool)
    (firstRun : DateTime) : Touches env jobId { a with jobs := a.jobs.insert jobId entry }
      (a.installJob env jobId entry enabled firstRun) := by
  refine emit ?_ _ rfl
  split
  · exact (refl _).scheduleNormal firstRun (.inl rfl)
  · exact refl _

end Touches

end Smalux.Scheduler
