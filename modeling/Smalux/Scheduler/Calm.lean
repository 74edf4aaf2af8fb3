/-
  Subject:   What happens to a Job while nobody asks for anything.

  Left alone, the actor starts and finishes executions, moves timers and queues, completes one-shot
  Jobs, and disables or deletes Jobs that fail for good. It never changes what a definition set,
  never enables a Job and never adds one.

  * `JobEntry.core` -- settings, state and version, the part of a Job commands are about;
  * `settle_core` -- starting executions and restoring held-back ones leaves it alone;
  * **`Calm`** -- what messages but commands may do to it (`left_alone`);
  * `Spares` -- the messages that leave a Job at its version.
-/
import Smalux.Scheduler.Reconcile
import Smalux.Scheduler.Simulation

namespace Smalux.Scheduler

open Lib SchedulerActor

variable {f : JobEntry → JobEntry} {kind : StepKind} {m : Machine} {jobId : JobId}

variable {a : SchedulerActor} {id : JobId} {message : Message} {env : Env} {m' : Machine}

/-! ## 1. The core of a Job -/

/-- What the definition set, whether the Job is on, and its version. -/
structure JobCore where
  settings : JobSettings
  state : JobState
  version : Nat
  deriving DecidableEq, Repr

def JobEntry.core (job : JobEntry) : JobCore := ⟨job.settings, job.state, job.version⟩

/-- The core of the Job with the given id. -/
def SchedulerActor.coreOf (a : SchedulerActor) (id : JobId) : Option JobCore :=
  (a.jobs.get id).map JobEntry.core

theorem coreOf_eq_some_iff {core : JobCore} :
    a.coreOf id = some core ↔ ∃ job, a.jobs.get id = some job ∧ job.core = core :=
  Option.map_eq_some_iff

theorem coreOf_of_get {job : JobEntry} (h : a.jobs.get id = some job) :
    a.coreOf id = some job.core := by
  rw [coreOf, h]
  rfl

section Core

variable {env : Env} {a : SchedulerActor}

theorem coreOf_modifyJob (hf : ∀ job, (f job).core = job.core) (id : JobId) :
    (a.modifyJob jobId f).coreOf id = a.coreOf id := by
  show ((a.jobs.modify jobId f).get id).map JobEntry.core = _
  rw [Table.get_modify]
  split
  · rw [Option.map_map]
    exact congrArg (fun g => Option.map g (a.jobs.get id)) (funext hf)
  · rfl

theorem coreOf_spawnExecution (p : PendingExecution) (id : JobId) :
    (a.spawnExecution env p).coreOf id = a.coreOf id := by
  unfold spawnExecution
  split
  · rfl
  · split
    · rfl
    · exact coreOf_modifyJob (a := a.tick)
        (f := startEntry (a.now env) p.scheduledAt) (fun _ => rfl) id

/-- The kinds of steps that leave every core alone. -/
def StepKind.quiet : StepKind → Bool
  | .plain | .configure | .expire | .work | .start => true
  | _ => false

theorem Step.coreOf_eq (h : Step env kind m m') (hq : kind.quiet = true) (id : JobId) :
    m'.actor.coreOf id = m.actor.coreOf id := by
  cases h with
  | silent | configure | emit | cancel | expire | ignore | fireRetry | clearRetries | draw | queue | drop
  | shrinkReady | lose | retry | forget => rfl
  | fire | block | dropReplaceable | unblock | fail =>
    refine coreOf_modifyJob ?_ id
    exact fun _ => rfl
  | scheduleNormal =>
    unfold coreOf
    rw [get_jobs_scheduleNormal]
    split
    · rw [Option.map_map]
      rfl
    · rfl
  | start _ p => exact coreOf_spawnExecution p id
  | finish _ => exact coreOf_modifyJob (f := releaseEntry _) (fun _ => rfl) id
  | rehash _ jobs hsame => exact congrArg (Option.map JobEntry.core) (hsame.get_eq id)
  | succeed | complete | disable | update | enable | delete | install => cases hq

theorem Steps.coreOf_eq {ok : StepKind → Prop} (h : Steps env ok m m')
    (hok : ∀ kind, ok kind → kind.quiet = true) (id : JobId) :
    m'.actor.coreOf id = m.actor.coreOf id :=
  h.keep (fun m' => m'.actor.coreOf id = m.actor.coreOf id)
    (fun _ _ _ hk hs hi => (hs.coreOf_eq (hok _ hk) id).trans hi) rfl

/-- **What the loop does before it waits** leaves every core alone. -/
theorem settle_core (a : SchedulerActor) (id : JobId) : (a.settle env).coreOf id = a.coreOf id :=
  (settle_steps (by rfl) (by rfl) (by rfl) a : Steps env (fun kind => kind.quiet = true) (.idle a)
    (.idle (a.settle env))).coreOf_eq (fun _ h => h) id

end Core

/-! ## 2. Left alone -/

/-- What may become of a Job that nobody touches: nothing, or it is completed at its version, or it
    is off at a later one. -/
structure JobCore.Calmed (c c' : JobCore) : Prop where
  settings : c'.settings = c.settings
  version : c.version ≤ c'.version
  same : c'.version = c.version → c'.state = c.state ∨ c'.state = .completed
  off : c.version < c'.version → c'.state ≠ .enabled

namespace JobCore.Calmed

variable {c c' c'' : JobCore}

theorem refl (c : JobCore) : c.Calmed c :=
  ⟨rfl, Nat.le_refl _, fun _ => .inl rfl, fun h => absurd h (Nat.lt_irrefl _)⟩

/-- A Job that is off stays off. -/
theorem not_enabled (h : c.Calmed c') (hc : c.state ≠ .enabled) : c'.state ≠ .enabled := by
  rcases Nat.lt_or_eq_of_le h.version with hlt | heq
  · exact h.off hlt
  · rcases h.same heq.symm with hs | hs
    · rw [hs]
      exact hc
    · rw [hs]
      exact nofun

theorem trans (h : c.Calmed c') (h' : c'.Calmed c'') : c.Calmed c'' where
  settings := h'.settings.trans h.settings
  version := Nat.le_trans h.version h'.version
  same := by
    intro heq
    have h₁ := h.version
    have h₂ := h'.version
    rcases h'.same (by omega) with hs | hs
    · rw [hs]
      exact h.same (by omega)
    · exact .inr hs
  off := by
    intro hlt
    rcases Nat.lt_or_eq_of_le h'.version with hlt' | heq
    · exact h'.off hlt'
    · exact h'.not_enabled (h.off (by omega))

end JobCore.Calmed

/-- Every Job that is there was there before, and is calmed. -/
def Calm (a a' : SchedulerActor) : Prop :=
  ∀ id c', a'.coreOf id = some c' → ∃ c, a.coreOf id = some c ∧ c.Calmed c'

namespace Calm

variable {env : Env} {a a' a'' : SchedulerActor}

theorem of_eq (h : ∀ id, a'.coreOf id = a.coreOf id) : Calm a a' :=
  fun id c' hc => ⟨c', (h id).symm.trans hc, .refl c'⟩

theorem refl (a : SchedulerActor) : Calm a a := of_eq fun _ => rfl

theorem trans (h : Calm a a') (h' : Calm a' a'') : Calm a a'' := by
  intro id c'' hc
  obtain ⟨c', hc', hcalm'⟩ := h' id c'' hc
  obtain ⟨c, hc, hcalm⟩ := h id c' hc'
  exact ⟨c, hc, hcalm.trans hcalm'⟩

/-- A Job that is enabled has been so, with these settings and at this version. -/
theorem enabled (h : Calm a a') {c' : JobCore} (hc : a'.coreOf id = some c')
    (hs : c'.state = .enabled) :
    ∃ c, a.coreOf id = some c ∧ c.state = .enabled ∧ c'.settings = c.settings ∧
      c'.version = c.version := by
  obtain ⟨c, hcore, hcalmed⟩ := h id c' hc
  refine ⟨c, hcore, ?_, hcalmed.settings, ?_⟩
  · by_contra hno
    exact hcalmed.not_enabled hno hs
  · have hle := hcalmed.version
    by_contra hne
    exact hcalmed.off (by omega) hs

theorem modifyJob (hf : ∀ job, a.jobs.get jobId = some job → job.core.Calmed (f job).core) :
    Calm a (a.modifyJob jobId f) := by
  intro id c' hc
  obtain ⟨job', hj', rfl⟩ := coreOf_eq_some_iff.mp hc
  have hget : (a.jobs.modify jobId f).get id = some job' := hj'
  rw [Table.get_modify] at hget
  split at hget
  · rename_i hid
    subst hid
    obtain ⟨job, hj, rfl⟩ := Option.map_eq_some_iff.mp hget
    exact ⟨job.core, coreOf_of_get hj, hf job hj⟩
  · exact ⟨job'.core, coreOf_of_get hget, .refl _⟩

theorem commitDisable (jobId : JobId) (job : JobEntry) (reason : String)
    (hj : a.jobs.get jobId = some job) :
    Calm a (a.commitDisable env jobId job (job.version + 1) reason) := by
  intro id c' hc
  obtain ⟨job', hj', rfl⟩ := coreOf_eq_some_iff.mp hc
  rw [get_commitDisable] at hj'
  split at hj'
  · rename_i hid
    subst hid
    rw [hj] at hj'
    cases hj'
    refine ⟨job.core, coreOf_of_get hj, rfl, Nat.le_succ _, fun h => ?_, fun _ h => by cases h⟩
    exact absurd h (Nat.succ_ne_self _)
  · exact ⟨job'.core, coreOf_of_get hj', .refl _⟩

theorem commitDelete (jobId : JobId) (job : JobEntry) (cancelRunning : Bool) :
    Calm a (a.commitDelete env jobId job cancelRunning) := by
  intro id c' hc
  obtain ⟨job', hj', rfl⟩ := coreOf_eq_some_iff.mp hc
  rw [get_commitDelete] at hj'
  split at hj'
  · cases hj'
  · exact ⟨job'.core, coreOf_of_get hj', .refl _⟩

/-- The steps nobody has to ask for. -/
def unasked : StepKind → Bool
  | .revise _ | .install _ _ => false
  | _ => true

theorem step (h : Step env kind m m') (hk : unasked kind = true) : Calm m.actor m'.actor := by
  by_cases hq : kind.quiet = true
  · exact of_eq (h.coreOf_eq hq)
  · cases h with
    | succeed _ =>
      refine modifyJob fun job _ => ⟨rfl, Nat.le_refl _, fun _ => ?_, fun h => ?_⟩
      · unfold successEntry
        split
        · exact .inr rfl
        · exact .inl rfl
      · exact absurd h (Nat.lt_irrefl _)
    | complete _ =>
      refine modifyJob fun job _ => ⟨rfl, Nat.le_refl _, fun _ => .inr rfl, fun h => ?_⟩
      exact absurd h (Nat.lt_irrefl _)
    | disable _ jobId job reason hj => exact commitDisable jobId job reason hj
    | delete _ jobId job cancelRunning => exact commitDelete jobId job cancelRunning
    | update | enable | install => cases hk
    | _ => exact absurd rfl hq

end Calm

/-- **Left alone**: any message but a command calms every Job. -/
theorem calm_turn (env : Env) (a : SchedulerActor) (hi : message.internal = true) :
    Calm a (a.turn env message) := by
  have hhandle : Calm a (a.handle env message) :=
    (internal_steps (by rfl) (by simp [Calm.unasked]) (by simp [Calm.unasked])
      (mutatesOnly_of_all (by simp [Calm.unasked]) message) hi :
      Steps env (fun kind => Calm.unasked kind = true) (.idle a) (.idle (a.handle env message))).keep
      (fun m => Calm a m.actor) (fun _ _ _ hk hs hcalm => hcalm.trans (Calm.step hs hk)) (.refl a)
  refine turn_keeps (Calm a) hhandle (fun b hb => ?_) (.refl a)
  exact hb.trans (.of_eq (settle_core b))

theorem Step.config_eq (h : Step env kind m m') (hk : kind ≠ .configure) :
    m'.actor.config = m.actor.config := by
  cases h with
  | configure => exact absurd rfl hk
  | scheduleNormal | enable => exact config_scheduleNormal env _ _ _ _
  | start =>
    unfold spawnExecution
    split
    · rfl
    · split <;> rfl
  | retry => rfl
  | update => exact config_commitUpdate env _ _ _ _ _
  | delete => exact config_commitDelete env _ _ _ _
  | install => exact config_installJob env _ _ _ _ _
  | _ => rfl

theorem Steps.config_eq (h : Steps env (· ≠ .configure) m m') : m'.actor.config = m.actor.config :=
  h.keep (fun m' => m'.actor.config = m.actor.config)
    (fun _ _ _ hk hs heq => (hs.config_eq hk).trans heq) rfl

theorem config_settle (env : Env) (a : SchedulerActor) : (a.settle env).config = a.config :=
  (settle_steps (by simp) (by simp) (by simp) a : Steps env (· ≠ .configure) _ _).config_eq

/-- It leaves the configuration alone, too. -/
theorem config_turn (env : Env) (a : SchedulerActor) (hi : message.internal = true) :
    (a.turn env message).config = a.config := by
  refine turn_keeps (fun b => b.config = a.config) ?_
    (fun b hb => (config_settle env b).trans hb) rfl
  exact (internal_steps (by simp) (by simp) (by simp)
    (mutatesOnly_of_all (by simp) message) hi : Steps env (· ≠ .configure) _ _).config_eq

/-- **Left alone, the actor adds, enables and redefines nothing**: over any messages but commands,
    each Job that is still there was there, with its settings, and is as enabled as it was or less;
    the configuration stays. -/
theorem left_alone (env : Env) (a : SchedulerActor) (messages : List Message)
    (h : ∀ message ∈ messages, message.internal = true) :
    Calm a (run (turn env) a messages) ∧ (run (turn env) a messages).config = a.config := by
  induction messages generalizing a with
  | nil => exact ⟨.refl a, rfl⟩
  | cons message rest ih =>
    have hi := h message List.mem_cons_self
    obtain ⟨hcalm, hconfig⟩ := ih (a.turn env message) fun m hm => h m (List.mem_cons_of_mem _ hm)
    exact ⟨(calm_turn env a hi).trans hcalm, hconfig.trans (config_turn env a hi)⟩

theorem left_alone_maintained :
    Calm oneJob (run (turn .still) oneJob [.expired [0], .maintenance]) ∧
      (run (turn .still) oneJob [.expired [0], .maintenance]).config = oneJob.config :=
  left_alone .still oneJob _ (by decide)

/-! ## 3. Spared -/

/-- The message neither disables nor deletes the Job. -/
def Spares (env : Env) (a : SchedulerActor) (id : JobId) (message : Message) : Prop :=
  MutatesOnly env (· ≠ .mutation id) a message

section Decidable

variable (env : Env) (a : SchedulerActor)

instance (entry : TimerEntry) : Decidable (Ignored a entry) :=
  decidable_of_iff (∀ job ∈ (a.jobs.get entry.jobId).toList,
    job.version ≠ entry.version ∨ job.state ≠ .enabled) <| by simp [Ignored]

instance (jobId : JobId) (scheduledAt : DateTime) (runNow : Bool) :
    Decidable (DueFails env a jobId scheduledAt runNow) :=
  decidable_of_iff (∃ job ∈ (a.jobs.get jobId).toList,
    (a.dueSchedule env job scheduledAt (a.now env) runNow).isOk = false) <| by
    refine exists_congr fun job => ?_
    rw [Option.mem_toList]
    cases a.dueSchedule env job scheduledAt (a.now env) runNow <;>
      simp [Except.isOk, Except.toBool]

instance (entry : TimerEntry) : Decidable (TimerDisables env a entry) :=
  inferInstanceAs (Decidable (_ ∧ _ ∧ _))

instance (jobId : JobId) (error : String) (count : Bool) :
    Decidable (FinalFailureDisables a jobId error count) :=
  decidable_of_iff (∃ job ∈ (a.jobs.get jobId).toList,
    thresholdReached (failEntry error count job) = true) <| by simp [FinalFailureDisables]

instance (c : TaskCompletion) (error : String) (class_ : FailureClass) :
    Decidable (FailureDisables a c error class_) :=
  inferInstanceAs (Decidable (_ ∨ (_ ∧ _)))

instance : (c : TaskCompletion) → Decidable (OutcomeMutates a c)
  | ⟨_, _, _, _, _, _, .finished .completed⟩ | ⟨_, _, _, _, _, _, .finished .outputDelivered⟩
  | ⟨_, _, _, _, _, _, .cancelled⟩ => .isFalse (fun h => h)
  | ⟨_, _, _, _, _, _, .finished (.taskPermanent _)⟩
  | ⟨_, _, _, _, _, _, .finished (.callbackPermanent _)⟩
  | ⟨_, _, _, _, _, _, .finished .channelClosed⟩ => .isTrue trivial
  | ⟨_, _, _, _, _, _, .finished (.callbackTransient _)⟩ =>
    inferInstanceAs (Decidable (FinalFailureDisables _ _ _ _))
  | ⟨_, _, _, _, _, _, .finished (.taskTransient _)⟩ | ⟨_, _, _, _, _, _, .timedOut⟩
  | ⟨_, _, _, _, _, _, .panicked _⟩ => inferInstanceAs (Decidable (FailureDisables _ _ _ _))

variable (ok : StepKind → Prop) [DecidablePred ok]

instance BatchDisablesOnly.decidable (batchId : Nat) :
    ∀ (entries : List (Nat × TimerEntry)) (a : SchedulerActor),
      Decidable (BatchDisablesOnly env ok batchId a entries)
  | [], _ => .isTrue trivial
  | expired :: rest, a =>
    have := BatchDisablesOnly.decidable batchId rest (a.handleTimer env expired.2 batchId)
    inferInstanceAs (Decidable ((_ → _) ∧ _))

instance : (message : Message) → Decidable (MutatesOnly env ok a message)
  | .completion _ _ _ => inferInstanceAs (Decidable (_ → _ → _))
  | .expired _ => inferInstanceAs (Decidable (BatchDisablesOnly _ _ _ _ _))
  | .command _ | .joinError _ | .maintenance | .rehash _ => .isTrue trivial

instance (id : JobId) (message : Message) : Decidable (Spares env a id message) :=
  inferInstanceAs (Decidable (MutatesOnly _ _ _ _))

end Decidable

theorem Step.version_eq (h : Step env kind m m') (hk : Calm.unasked kind = true)
    (hid : kind ≠ .mutation id) :
    (m'.actor.coreOf id).map JobCore.version = (m.actor.coreOf id).map JobCore.version := by
  have hmodify : ∀ (jobId : JobId) (f : JobEntry → JobEntry),
      (∀ job, (f job).version = job.version) →
      ((m.actor.modifyJob jobId f).coreOf id).map JobCore.version =
        (m.actor.coreOf id).map JobCore.version := by
    intro jobId f hf
    show (((m.actor.jobs.modify jobId f).get id).map JobEntry.core).map _ = _
    rw [Table.get_modify, coreOf]
    split
    · rw [Option.map_map, Option.map_map, Option.map_map]
      exact congrArg (fun g => Option.map g (m.actor.jobs.get id)) (funext hf)
    · rfl
  by_cases hq : kind.quiet = true
  · rw [h.coreOf_eq hq]
  · cases h with
    | succeed _ jobId | complete _ jobId => exact hmodify jobId _ fun _ => rfl
    | disable _ jobId =>
      have hne : id ≠ jobId := fun heq => hid (congrArg StepKind.mutation heq.symm)
      rw [coreOf, get_commitDisable, if_neg hne]
      rfl
    | delete _ jobId =>
      have hne : id ≠ jobId := fun heq => hid (congrArg StepKind.mutation heq.symm)
      rw [coreOf, get_commitDelete, if_neg hne]
      rfl
    | update | enable | install => cases hk
    | _ => exact absurd rfl hq

/-- **A Job that is spared** keeps its version. -/
theorem Spares.version_eq (h : Spares env a id message) (hi : message.internal = true) :
    ((a.turn env message).coreOf id).map JobCore.version = (a.coreOf id).map JobCore.version := by
  have honly : MutatesOnly env (fun kind => Calm.unasked kind = true ∧ kind ≠ .mutation id) a
      message :=
    h.mono fun _ hne => ⟨rfl, hne⟩
  have hhandle : ((a.handle env message).coreOf id).map JobCore.version =
      (a.coreOf id).map JobCore.version :=
    (internal_steps (by simp [Calm.unasked]) (by simp [Calm.unasked]) (by simp [Calm.unasked])
      honly hi).keep
      (fun m => (m.actor.coreOf id).map JobCore.version = (a.coreOf id).map JobCore.version)
      (fun _ _ _ hk hs hv => (hs.version_eq hk.1 hk.2).trans hv) rfl
  refine turn_keeps (fun b => (b.coreOf id).map JobCore.version =
    (a.coreOf id).map JobCore.version) hhandle (fun b hb => ?_) rfl
  rw [settle_core]
  exact hb

end Smalux.Scheduler
