/-
  Subject:   Does a refused command leave everything as it was?

  The controller writes its own state only at the end of a command. The scheduler's is written call
  by call: an update is followed by an enable or disable request, an installation by a look at the
  new Job, and a reconcile plan may stop on the way.

  * `Shows` -- the request changes some Job's definition; `same_serve_iff`;
  * `Sound`, `Decided`, `Whole` -- the rules for programs: a request that is not served ends the program
    with an error, and what can still fail after a change is only another request;
  * **`command_atomic_iff`** -- exactly when a command is all-or-nothing.
-/
import Smalux.Remote.Rules
import Smalux.Remote.Catalog
import Smalux.Scheduler.Halfway

namespace Smalux.Remote

open Lib Scheduler SchedulerActor List

/-! ## 1. What a request changes -/

/-- The commands the controller sends. -/
def Command.FromController : Command → Prop
  | .add none _ _ _ _ _ | .updateConfig _ _ => False
  | _ => True

/-- The request, if the actor lives, changes the settings or the state of a Job, or adds or removes
    one. -/
def Changes (env : Env) (a : SchedulerActor) : Command → Prop
  | .add jobId _ _ trigger task options => a.addAccepted env jobId trigger task options = true
  | .update jobId version patch =>
    (a.planJobUpdate env jobId version patch).isOk = true ∧
      ∃ core, a.coreOf jobId = some core ∧ core.settings.patched patch ≠ core.settings
  | .enable jobId version =>
    ∃ core, AtVersion a jobId version core ∧ core.state ≠ .enabled ∧
      Enableable env a version core
  | .disable jobId version reason =>
    Disableable a jobId version ∧
      ∃ core, a.coreOf jobId = some core ∧ core.state ≠ .disabled reason
  | .delete jobId version => ∃ core, AtVersion a jobId version core
  | .reconcile plan => PlanChecked env a plan ∧ planQuiet env a plan = false
  | .get _ | .list | .getConfig | .updateConfig _ _ => False

def Shows (env : Env) (a : SchedulerActor) (command : Command) : Prop :=
  a.panicked = false ∧ Changes env a command

section Changes

variable {env : Env} {a : SchedulerActor}

variable (id : JobId) (version : Nat)

theorem definitionOf_eq {id : JobId} {core : JobCore} (h : a.coreOf id = some core) :
    a.definitionOf id = some (core.settings, core.state) := by
  rw [definitionOf, h]
  rfl

/-- After a served update. -/
theorem same_update_iff (patch : JobPatch) :
    SameDefinitions a (serve env a (.update id version patch)).2 ↔
      ¬ Shows env a (.update id version patch) := by
  rcases serve_update env a id version patch with
    ⟨hno, -, hsame⟩ | ⟨core, snapshot, hserved, hat, -, -, -, -, hset⟩
  · exact ⟨fun _ hs => hno ⟨hs.1, hs.2.1⟩, fun _ => hsame.definitions⟩
  · rw [hset.same_iff, definitionOf_eq hat.1]
    constructor
    · rintro heq ⟨-, -, core', hc', hne⟩
      rw [hat.1] at hc'
      cases hc'
      exact hne (congrArg Prod.fst (Option.some.inj heq))
    · intro hno
      by_contra hne
      refine hno ⟨hserved.1, hserved.2, core, hat.1, fun heq => hne ?_⟩
      rw [heq]
      rfl

theorem same_enable_iff : SameDefinitions a (serve env a (.enable id version)).2 ↔
      ¬ Shows env a (.enable id version) := by
  rcases serve_enable env a id version with
    ⟨hno, -, hsame⟩ | ⟨core, snapshot, hserved, hat, -, ⟨hon, -, hsame⟩ | ⟨hoff, -, hset⟩⟩
  · refine ⟨fun _ hs => hno ⟨hs.1, ?_⟩, fun _ => hsame.definitions⟩
    obtain ⟨-, core, hat, -, hen⟩ := hs
    exact ⟨core, hat, .inr hen⟩
  · refine ⟨fun _ hs => ?_, fun _ => hsame.definitions⟩
    obtain ⟨-, core', hat', hoff, -⟩ := hs
    rw [hat.unique hat'] at hoff
    exact hoff hon
  · rw [hset.same_iff, definitionOf_eq hat.1]
    constructor
    · intro heq
      exact absurd (congrArg Prod.snd (Option.some.inj heq)).symm hoff
    · intro hno
      obtain ⟨hlive, core', hat', hcase⟩ := hserved
      rw [hat.unique hat'] at hcase
      exact absurd ⟨hlive, core, hat, hoff, hcase.resolve_left hoff⟩ hno

theorem same_disable_iff (reason : String) :
    SameDefinitions a (serve env a (.disable id version reason)).2 ↔
      ¬ Shows env a (.disable id version reason) := by
  rcases serve_disable env a id version reason with
    ⟨hno, -, hsame⟩ | ⟨core, snapshot, hserved, hat, -, -, hset⟩
  · exact ⟨fun _ hs => hno ⟨hs.1, hs.2.1⟩, fun _ => hsame.definitions⟩
  · rw [hset.same_iff, definitionOf_eq hat.1]
    constructor
    · rintro heq ⟨-, -, core', hc', hne⟩
      rw [hat.1] at hc'
      cases hc'
      exact hne (congrArg Prod.snd (Option.some.inj heq)).symm
    · intro hno
      by_contra hne
      refine hno ⟨hserved.1, hserved.2, core, hat.1, fun heq => hne ?_⟩
      rw [heq]
      rfl

theorem same_delete_iff : SameDefinitions a (serve env a (.delete id version)).2 ↔
      ¬ Shows env a (.delete id version) := by
  rcases serve_delete env a id version with ⟨hno, -, hsame⟩ | ⟨core, hserved, hat, -, hset⟩
  · exact ⟨fun _ hs => hno hs, fun _ => hsame.definitions⟩
  · rw [hset.same_iff, definitionOf_eq hat.1]
    exact ⟨nofun, fun hno => absurd hserved hno⟩

theorem same_install_iff (enabled : Bool) (trigger : Trigger) (task : TaskBinding)
    (options : JobOptions) :
    SameDefinitions a (serve env a (.add (some id) version enabled trigger task options)).2 ↔
      ¬ Shows env a (.add (some id) version enabled trigger task options) := by
  rcases serve_install env a id version enabled trigger task options with
    ⟨hno, -, hsame⟩ | ⟨hserved, hnone, -, hset⟩
  · exact ⟨fun _ hs => hno hs, fun _ => hsame.definitions⟩
  · rw [hset.same_iff, definitionOf, hnone]
    exact ⟨fun h => (by cases h), fun hno => absurd hserved hno⟩

theorem same_reconcile_iff (plan : SchedulerReconcilePlan) :
    SameDefinitions a (serve env a (.reconcile plan)).2 ↔ ¬ Shows env a (.reconcile plan) := by
  cases hp : a.panicked with
  | true =>
    rw [serve_dead hp]
    exact ⟨fun _ hs => Bool.false_ne_true (hs.1.symm.trans hp), fun _ _ => rfl⟩
  | false =>
    have hcores : SameCores (a.reconcileJobs env plan).2 (serve env a (.reconcile plan)).2 :=
      serve_cores hp
    have hthrough : SameDefinitions a (serve env a (.reconcile plan)).2 ↔
        SameDefinitions a (a.reconcileJobs env plan).2 :=
      ⟨fun h id => (hcores.definitions id).symm.trans (h id),
        fun h id => (hcores.definitions id).trans (h id)⟩
    rw [hthrough]
    by_cases hc : PlanChecked env a plan
    · rw [reconcileJobs_checked hc rfl, applyPlan_same_iff hc]
      constructor
      · rintro hq ⟨-, -, hno⟩
        rw [hq] at hno
        cases hno
      · intro hno
        exact (Bool.not_eq_false _).mp fun hq => hno ⟨hp, hc, hq⟩
    · obtain ⟨e, n, hr⟩ := reconcileJobs_refused hc
      rw [hr]
      exact ⟨fun _ hs => hc hs.2.1, fun _ _ => rfl⟩

/-- **A request shows exactly if it changes something.** -/
theorem same_serve_iff {command : Command} (h : Command.FromController command) :
    SameDefinitions a (serve env a command).2 ↔ ¬ Shows env a command := by
  cases command with
  | add jobId version enabled trigger task options =>
    cases jobId with
    | none => cases h
    | some id => exact same_install_iff id version enabled trigger task options
  | update jobId version patch => exact same_update_iff jobId version patch
  | enable jobId version => exact same_enable_iff jobId version
  | disable jobId version reason => exact same_disable_iff jobId version reason
  | delete jobId version => exact same_delete_iff jobId version
  | reconcile plan => exact same_reconcile_iff plan
  | get jobId =>
    rcases serve_get env a jobId with ⟨-, -, hsame⟩ | ⟨-, hsame, -⟩ <;>
      exact ⟨fun _ hs => hs.2, fun _ => hsame.definitions⟩
  | list =>
    rcases serve_list env a with ⟨-, -, hsame⟩ | ⟨-, hsame, -⟩ <;>
      exact ⟨fun _ hs => hs.2, fun _ => hsame.definitions⟩
  | getConfig =>
    rcases serve_getConfig env a with ⟨-, -, hsame⟩ | ⟨-, hsame, -⟩ <;>
      exact ⟨fun _ hs => hs.2, fun _ => hsame.definitions⟩
  | updateConfig => cases h

end Changes

/-! ## 2. Programs -/

section Programs

variable (env : Env) {α β : Type} (good : α → Prop) (good' : β → Prop)

/-- The requests are the controller's own, and one that is not served ends the program badly. -/
structure Sound (p : Calls α) : Prop where
  requests : ∀ script a, ∀ call ∈ performed env p script a, Command.FromController call.2
  strict : ∀ script a, (∃ call ∈ performed env p script a, ¬ Served env call.1 call.2) →
    ¬ good (perform env p script a).1

/-- If every request is served, the program ends well. -/
def Finishes (p : Calls α) : Prop :=
  ∀ script a, (∀ call ∈ performed env p script a, Served env call.1 call.2) →
    good (perform env p script a).1

/-- The same, once a request has changed something. -/
def Committed (p : Calls α) : Prop :=
  ∀ script a, (∃ call ∈ performed env p script a, Shows env call.1 call.2) →
    (∀ call ∈ performed env p script a, Served env call.1 call.2) → good (perform env p script a).1

/-- After a bad value nothing is asked any more, and the end is bad. -/
def StopsBadly (f : α → Calls β) : Prop := ∀ value, ¬ good value → ∃ w, f value = .done w ∧ ¬ good' w

/-- A refusal ends it badly, and if every request is served it ends well. -/
structure Decided (p : Calls α) : Prop where
  sound : Sound env good p
  finishes : Finishes env good p

/-- The same, once a request has changed something. -/
structure Whole (p : Calls α) : Prop where
  sound : Sound env good p
  committed : Committed env good p

variable {env good good'} {p : Calls α} {f : α → Calls β}

theorem Decided.whole (h : Decided env good p) : Whole env good p :=
  ⟨h.sound, fun script a _ => h.finishes script a⟩

theorem whole_done (value : α) : Whole env good (.done value) where
  sound := ⟨fun _ _ _ hcall => absurd hcall not_mem_nil,
    fun _ _ ⟨_, hcall, _⟩ => absurd hcall not_mem_nil⟩
  committed := fun _ _ ⟨_, hcall, _⟩ => absurd hcall not_mem_nil

theorem decided_done {value : α} (h : good value) : Decided env good (.done value) :=
  ⟨(whole_done value).sound, fun _ _ _ => h⟩

theorem decided_ask {command : Command} {read : Answer → α} (hc : Command.FromController command)
    (h : ∀ a, (¬ Served env a command ∧ ¬ good (read (serve env a command).1)) ∨
      (Served env a command ∧ good (read (serve env a command).1))) :
    Decided env good (.ask command fun answer => .done (read answer)) where
  sound.requests := fun _ _ call hcall => by
    rw [mem_singleton.mp hcall]
    exact hc
  sound.strict := fun _ _ ⟨call, hcall, hno⟩ => by
    rw [mem_singleton.mp hcall] at hno
    exact ((h _).resolve_right fun hs => hno hs.1).2
  finishes := fun _ _ hserved =>
    ((h _).resolve_left fun hno => hno.1 (hserved _ mem_cons_self)).2

/-- What the second part of a program asks, it asks after a good value. -/
theorem good_of_mem_rest (hbad : StopsBadly good good' f) {value : α} {script : Script}
    {a : SchedulerActor} {call : SchedulerActor × Command}
    (hcall : call ∈ performed env (f value) script a) : good value := by
  by_contra hno
  obtain ⟨w, hw, -⟩ := hbad value hno
  rw [hw] at hcall
  exact absurd hcall not_mem_nil

theorem Sound.bind (hp : Sound env good p) (hbad : StopsBadly good good' f)
    (hf : ∀ value, good value → Sound env good' (f value)) : Sound env good' (p >>= f) where
  requests := by
    intro script a call hcall
    rw [performed_bind, mem_append] at hcall
    rcases hcall with hcall | hcall
    · exact hp.requests script a call hcall
    · exact (hf _ (good_of_mem_rest hbad hcall)).requests _ _ call hcall
  strict := by
    rintro script a ⟨call, hcall, hno⟩
    rw [performed_bind, mem_append] at hcall
    rw [perform_bind]
    rcases hcall with hcall | hcall
    · obtain ⟨w, hw, hbad'⟩ := hbad _ (hp.strict script a ⟨call, hcall, hno⟩)
      rw [hw]
      exact hbad'
    · exact (hf _ (good_of_mem_rest hbad hcall)).strict _ _ ⟨call, hcall, hno⟩

theorem Finishes.bind (hp : Finishes env good p)
    (hf : ∀ value, good value → Finishes env good' (f value)) : Finishes env good' (p >>= f) := by
  intro script a hserved
  rw [performed_bind] at hserved
  rw [perform_bind]
  have hvalue := hp script a fun call hcall => hserved call (mem_append_left _ hcall)
  exact hf _ hvalue _ _ fun call hcall => hserved call (mem_append_right _ hcall)

theorem Decided.bind (hp : Decided env good p) (hbad : StopsBadly good good' f)
    (hf : ∀ value, good value → Decided env good' (f value)) : Decided env good' (p >>= f) :=
  ⟨hp.sound.bind hbad fun value hv => (hf value hv).sound,
    hp.finishes.bind fun value hv => (hf value hv).finishes⟩

/-- The first part changes nothing. -/
theorem Whole.bind_quiet (hp : Sound env good p)
    (hquiet : ∀ script a, ∀ call ∈ performed env p script a, ¬ Shows env call.1 call.2)
    (hbad : StopsBadly good good' f) (hf : ∀ value, good value → Whole env good' (f value)) :
    Whole env good' (p >>= f) := by
  refine ⟨hp.bind hbad fun value hv => (hf value hv).sound, ?_⟩
  rintro script a ⟨call, hcall, hshows⟩ hserved
  rw [performed_bind] at hcall hserved
  rw [perform_bind]
  rcases mem_append.mp hcall with hcall | hcall
  · exact absurd hshows (hquiet script a call hcall)
  · exact (hf _ (good_of_mem_rest hbad hcall)).committed _ _ ⟨call, hcall, hshows⟩
      fun call' hcall' => hserved call' (mem_append_right _ hcall')

/-- The second part asks nothing. -/
theorem Whole.bind_done (hp : Whole env good p) (hbad : StopsBadly good good' f)
    (hf : ∀ value, good value → ∃ w, f value = .done w ∧ good' w) : Whole env good' (p >>= f) := by
  have hdone : ∀ value, good value → Decided env good' (f value) := by
    intro value hv
    obtain ⟨w, hw, hgood⟩ := hf value hv
    rw [hw]
    exact decided_done hgood
  refine ⟨hp.sound.bind hbad fun value hv => (hdone value hv).sound, ?_⟩
  rintro script a ⟨call, hcall, hshows⟩ hserved
  rw [performed_bind] at hcall hserved
  rw [perform_bind]
  have hvalue : good (perform env p script a).1 := by
    rcases mem_append.mp hcall with hcall | hcall
    · exact hp.committed script a ⟨call, hcall, hshows⟩ fun call' hcall' =>
        hserved call' (mem_append_left _ hcall')
    · exact good_of_mem_rest hbad hcall
  exact (hdone _ hvalue).finishes _ _ fun call' hcall' =>
    hserved call' (mem_append_right _ hcall')

end Programs

/-- The result of a fallible program. -/
def Succeeds {ε α : Type} (result : Except ε α) : Prop := result.isOk = true

section Fallible

variable {env : Env} {α β ε : Type}

theorem not_succeeds_error {e : ε} : ¬ Succeeds (.error e : Except ε α) := by
  intro h
  cases h

theorem succeeds_ok {value : α} : Succeeds (.ok value : Except ε α) := rfl

theorem eq_error_of_not_succeeds {result : Except ε α} (h : ¬ Succeeds result) :
    ∃ e, result = .error e := by
  cases result with
  | error e => exact ⟨e, rfl⟩
  | ok => exact absurd rfl h

theorem eq_ok_of_succeeds {result : Except ε α} (h : Succeeds result) :
    ∃ value, result = .ok value := by
  cases result with
  | error => cases h
  | ok value => exact ⟨value, rfl⟩

/-- A check asks nothing, so nothing has changed before it. -/
theorem whole_checked {x : Except ControlError α} {f : α → Calls (Except ControlError β)}
    (hf : ∀ value, x = .ok value → Whole env Succeeds (f value)) :
    Whole env Succeeds (checked x f) := by
  cases x with
  | error => exact whole_done _
  | ok value => exact hf value rfl

section Scheduler

variable {p : Calls (Except SchedulerError α)} {f : α → Calls (Except ControlError β)}

theorem stopsBadly_onScheduler : StopsBadly Succeeds Succeeds
    fun result : Except SchedulerError α =>
      match result with
      | .ok value => f value
      | .error e => (pure (.error (schedulerError e)) : Calls (Except ControlError β)) := by
  intro result hno
  obtain ⟨e, rfl⟩ := eq_error_of_not_succeeds hno
  exact ⟨_, rfl, not_succeeds_error⟩

theorem decided_onScheduler (hp : Decided env Succeeds p)
    (hf : ∀ value, Decided env Succeeds (f value)) : Decided env Succeeds (onScheduler p f) := by
  refine hp.bind stopsBadly_onScheduler fun result hok => ?_
  obtain ⟨value, rfl⟩ := eq_ok_of_succeeds hok
  exact hf value

theorem whole_onScheduler (hp : Decided env Succeeds p)
    (hquiet : ∀ script a, ∀ call ∈ performed env p script a, ¬ Shows env call.1 call.2)
    (hf : ∀ value, Whole env Succeeds (f value)) : Whole env Succeeds (onScheduler p f) := by
  refine Whole.bind_quiet hp.sound hquiet stopsBadly_onScheduler fun result hok => ?_
  obtain ⟨value, rfl⟩ := eq_ok_of_succeeds hok
  exact hf value

end Scheduler

theorem whole_andThen {p : Calls (Except ε α)} {f : α → Calls (Except ε β)}
    (hp : Whole env Succeeds p) (hf : ∀ value, ∃ w, f value = .done (.ok w)) :
    Whole env Succeeds (andThen p f) := by
  refine hp.bind_done (fun result hno => ?_) fun result hok => ?_
  · obtain ⟨e, rfl⟩ := eq_error_of_not_succeeds hno
    exact ⟨_, rfl, not_succeeds_error⟩
  · obtain ⟨value, rfl⟩ := eq_ok_of_succeeds hok
    obtain ⟨w, hw⟩ := hf value
    exact ⟨_, hw, succeeds_ok⟩

end Fallible

/-! ## 3. The controller's calls -/

section Calls

variable (env : Env) (id : JobId) (version : Nat)

/-- The answer is a value or an error as the request is served or not. -/
def Decides {α : Type} (command : Command) (read : Answer → Except SchedulerError α) : Prop :=
  ∀ a, (¬ Served env a command ∧ ∃ e, read (serve env a command).1 = .error e) ∨
    (Served env a command ∧ ∃ value, read (serve env a command).1 = .ok value)

variable {env} in
theorem Decides.decided {α : Type} {command : Command} {read : Answer → Except SchedulerError α}
    (h : Decides env command read) (hc : Command.FromController command) :
    Decided env Succeeds (.ask command fun answer => .done (read answer)) := by
  refine decided_ask hc fun a => ?_
  rcases h a with ⟨hno, e, he⟩ | ⟨hserved, value, hok⟩
  · rw [he]
    exact .inl ⟨hno, not_succeeds_error⟩
  · rw [hok]
    exact .inr ⟨hserved, succeeds_ok⟩

theorem decides_update (patch : JobPatch) : Decides env (.update id version patch) Answer.job := by
  intro a
  rcases serve_update env a id version patch with ⟨hno, he, -⟩ | ⟨_, snapshot, hs, -, hok, -⟩
  · exact .inl ⟨hno, he⟩
  · exact .inr ⟨hs, snapshot, hok⟩

theorem decides_enable : Decides env (.enable id version) Answer.job := by
  intro a
  rcases serve_enable env a id version with ⟨hno, he, -⟩ | ⟨_, snapshot, hs, -, hok, -⟩
  · exact .inl ⟨hno, he⟩
  · exact .inr ⟨hs, snapshot, hok⟩

theorem decides_disable (reason : String) :
    Decides env (.disable id version reason) Answer.job := by
  intro a
  rcases serve_disable env a id version reason with ⟨hno, he, -⟩ | ⟨_, snapshot, hs, -, hok, -⟩
  · exact .inl ⟨hno, he⟩
  · exact .inr ⟨hs, snapshot, hok⟩

theorem decides_delete : Decides env (.delete id version) Answer.deleted := by
  intro a
  rcases serve_delete env a id version with ⟨hno, he, -⟩ | ⟨_, hs, -, hok, -⟩
  · exact .inl ⟨hno, he⟩
  · exact .inr ⟨hs, (), hok⟩

theorem decides_install (enabled : Bool) (trigger : Trigger) (task : TaskBinding)
    (options : JobOptions) :
    Decides env (.add (some id) version enabled trigger task options) Answer.added := by
  intro a
  rcases serve_install env a id version enabled trigger task options with
    ⟨hno, he, -⟩ | ⟨hs, -, hok, -⟩
  · exact .inl ⟨hno, he⟩
  · exact .inr ⟨hs, id, hok⟩

theorem decides_list : Decides env .list Answer.jobs := by
  intro a
  rcases serve_list env a with ⟨hdead, he, -⟩ | ⟨hlive, -, snapshots, hok, -⟩
  · exact .inl ⟨not_served_dead hdead, .closed, he⟩
  · exact .inr ⟨⟨hlive, trivial⟩, snapshots, hok⟩

theorem decides_getConfig : Decides env .getConfig Answer.config := by
  intro a
  rcases serve_getConfig env a with ⟨hdead, he, -⟩ | ⟨hlive, -, hok⟩
  · exact .inl ⟨not_served_dead hdead, .closed, he⟩
  · exact .inr ⟨⟨hlive, trivial⟩, _, hok⟩

theorem decides_reconcile (plan : SchedulerReconcilePlan) :
    Decides env (.reconcile plan) Answer.reconciled := by
  intro a
  by_cases hs : Served env a (.reconcile plan)
  · obtain ⟨applied, -, hok, -⟩ := serve_reconcile env a plan hs
    exact .inr ⟨hs, applied, hok⟩
  · exact .inl ⟨hs, serve_reconcile_error env a plan hs⟩

/-- A Job that was read back. -/
def Found (result : Except SchedulerError (Option JobSnapshot)) : Prop :=
  ∃ snapshot, result = .ok (some snapshot)

theorem decided_get : Decided env Found (Calls.get id) := by
  refine decided_ask trivial fun a => ?_
  rcases serve_get env a id with ⟨hdead, he, -⟩ | ⟨hlive, -, found, hok, hcore⟩
  · refine .inl ⟨not_served_dead hdead, ?_⟩
    rw [he]
    rintro ⟨snapshot, h⟩
    cases h
  · rw [hok]
    cases found with
    | none =>
      refine .inl ⟨fun hserved => hserved.2 (Option.map_eq_none_iff.mp hcore.symm), ?_⟩
      rintro ⟨snapshot, h⟩
      cases h
    | some snapshot =>
      refine .inr ⟨⟨hlive, fun hnone => ?_⟩, snapshot, rfl⟩
      rw [hnone] at hcore
      cases hcore

end Calls

/-! ## 4. The commands -/

section Commands

variable {env : Env} (factory : TaskFactory) (policy : RemoteJobPolicy) (state : ControllerState)

theorem decided_setEnabled (snapshot : JobSnapshot) (enabled : Bool) :
    Decided env Succeeds (setEnabled snapshot enabled) := by
  unfold setEnabled
  split
  · exact decided_done succeeds_ok
  · exact decided_done succeeds_ok
  · exact (decides_enable env _ _).decided trivial
  · exact (decides_disable env _ _ _).decided trivial

/-- After the revision has been checked, only the scheduler can refuse. -/
theorem whole_upsertExisting (job : CompiledJob) (current : ManagedJob) :
    Whole env Succeeds (upsertExisting job current) := by
  refine whole_checked fun _ _ => Decided.whole ?_
  refine decided_onScheduler ((decides_update env _ _ _).decided trivial) fun _ => ?_
  exact decided_onScheduler (decided_setEnabled _ _) fun _ => decided_done succeeds_ok

/-- The new Job is read back. -/
theorem whole_upsertNew (job : CompiledJob) : Whole env Succeeds (upsertNew job) := by
  refine Decided.whole
    (decided_onScheduler ((decides_install env _ _ _ _ _ _).decided trivial) fun _ => ?_)
  refine Decided.bind (decided_get env job.id) (fun result hno => ?_) fun result hok => ?_
  · rcases result with e | found
    · exact ⟨_, rfl, not_succeeds_error⟩
    · cases found with
      | none => exact ⟨_, rfl, not_succeeds_error⟩
      | some snapshot => exact absurd ⟨snapshot, rfl⟩ hno
  · obtain ⟨snapshot, rfl⟩ := hok
    exact decided_done succeeds_ok

theorem whole_upsert (command : Proto.UpsertJob) :
    Whole env Succeeds (upsert factory policy state command) := by
  refine whole_checked fun _ _ => whole_checked fun _ _ => whole_checked fun job _ =>
    whole_andThen (whole_andThen ?_ fun _ => ⟨_, rfl⟩) fun _ => ⟨_, rfl⟩
  split
  · exact whole_upsertExisting job _
  · exact whole_upsertNew job

theorem whole_delete (command : Proto.DeleteJob) : Whole env Succeeds (delete state command) := by
  refine whole_checked fun _ _ => whole_checked fun _ _ => Decided.whole ?_
  exact decided_onScheduler ((decides_delete env _ _).decided trivial) fun _ =>
    decided_done succeeds_ok

theorem whole_runNow (command : Proto.RunJobNow) :
    Whole env Succeeds (runNow policy state command) := by
  refine whole_checked fun _ _ => whole_checked fun _ _ => Decided.whole ?_
  exact decided_onScheduler ((decides_update env _ _ _).decided trivial) fun _ =>
    decided_done succeeds_ok

/-! ### The whole catalog -/

/-- The answer knows every Job the plan asks for. -/
def Covers (plan : SchedulerReconcilePlan)
    (result : Except SchedulerError (List JobSnapshot)) : Prop :=
  ∃ applied, result = .ok applied ∧ ∀ id ∈ plan.targetIds, (versionIn applied id).isSome = true

theorem finishes_reconcile (plan : SchedulerReconcilePlan) :
    Finishes env (Covers plan) (Calls.reconcile plan) := by
  intro script a hserved
  obtain ⟨applied, a', hok, happlied, -, hversion⟩ :=
    serve_reconcile env _ plan (hserved _ mem_cons_self)
  refine ⟨applied, hok, fun id hid => ?_⟩
  rw [hversion id hid, Option.isSome_map]
  exact happlied.there hid

/-- Once the plan is carried out, the record can be written. -/
theorem decided_reconciled {jobs : List CompiledJob} {plan : SchedulerReconcilePlan}
    (hplan : planJobs state jobs = .ok plan) (deletions : List (JobId × Nat))
    {g : Table JobId ManagedJob → ControllerState × Option Proto.JobStatus} :
    Decided env Succeeds (onScheduler (Calls.reconcile { plan with deletions := deletions })
      fun applied => checked (recordApplied state applied jobs Table.empty) fun remoteJobs =>
        pure (.ok (g remoteJobs))) := by
  constructor
  · refine ((decides_reconcile env _).decided trivial).sound.bind stopsBadly_onScheduler
      fun result hok => ?_
    obtain ⟨applied, rfl⟩ := eq_ok_of_succeeds hok
    exact (whole_checked fun _ _ => whole_done _).sound
  · refine Finishes.bind (finishes_reconcile _) fun result hcovers => ?_
    obtain ⟨applied, rfl, hversions⟩ := hcovers
    obtain ⟨remoteJobs, hrecorded⟩ := recordApplied_planned state hplan hversions
    show Finishes env Succeeds (checked (recordApplied state applied jobs Table.empty) _)
    rw [hrecorded]
    exact (decided_done succeeds_ok).finishes

/-- A request that only reads. -/
theorem quiet_ask {α : Type} {command : Command} {read : Answer → α}
    (h : ∀ a, ¬ Shows env a command) :
    ∀ script a, ∀ call ∈ performed env (.ask command fun answer => .done (read answer)) script a,
      ¬ Shows env call.1 call.2 := by
  intro script a call hcall
  rw [mem_singleton.mp hcall]
  exact h _

theorem whole_replaceAll (command : Proto.ReplaceAllJobs) :
    Whole env Succeeds (replaceAll factory policy state command) := by
  refine whole_checked fun _ _ => whole_checked fun _ _ =>
    whole_onScheduler ((decides_list env).decided trivial) (quiet_ask fun a h => h.2) fun _ =>
    whole_checked fun _ _ => whole_checked fun _ _ =>
    whole_onScheduler ((decides_getConfig env).decided trivial) (quiet_ask fun a h => h.2) fun _ =>
    whole_checked fun _ _ => whole_checked fun plan hplan => Decided.whole ?_
  exact decided_reconciled state hplan _

theorem whole_applyAction (action : Option Proto.Action) :
    Whole env Succeeds (applyAction factory policy state action) := by
  unfold applyAction
  split
  · exact whole_upsert factory policy state _
  · exact whole_delete state _
  · exact whole_runNow policy state _
  · exact whole_replaceAll factory policy state _
  · exact whole_done _

end Commands

/-! ## 5. All or nothing -/

/-- **A command that is not applied changes nothing**: not the catalog revision, not the record of
    remote Jobs, and by none of its requests the settings or the state of a Job. -/
def Atomic (env : Env) (factory : TaskFactory) (s : Agent) (command : Proto.JobCommand)
    (script : Script) : Prop :=
  let program := applyCommand factory s.policy s.controller command
  let r := perform env program script s.scheduler
  r.1.1.status ≠ .applied →
    r.1.2.catalogRevision = s.controller.catalogRevision ∧
      r.1.2.remoteJobs = s.controller.remoteJobs ∧
      ∀ call ∈ performed env program script s.scheduler,
        SameDefinitions call.1 (serve env call.1 call.2).2

section Atomic

variable (env : Env) (factory : TaskFactory) (policy : RemoteJobPolicy) (state : ControllerState)

/-- A command answered without a request is atomic. -/
theorem applyCommand_done {command : Proto.JobCommand}
    (h : ∀ commandId, parseUuid command.commandId "command_id" = .ok commandId →
      state.cachedResults.get commandId ≠ none) :
    ∃ result, applyCommand factory policy state command = .done (result, state) := by
  unfold applyCommand
  split
  · exact ⟨_, rfl⟩
  · rename_i commandId hid
    split
    · exact ⟨_, rfl⟩
    · rename_i hnone
      exact absurd hnone (h commandId hid)

/-- Caching a result leaves the records as they are. -/
theorem cached_records (state : ControllerState) (commandId : Uuid)
    (result : Proto.JobCommandResult) :
    let cached := if shouldCacheResult result then cacheResult state commandId result else state
    cached.remoteJobs = state.remoteJobs ∧ cached.catalogRevision = state.catalogRevision := by
  split <;> exact ⟨rfl, rfl⟩

/-- A command that is carried out: its requests are those of its action, it is applied if the action
    succeeds, and otherwise the controller is as before. -/
theorem perform_applyCommand {command : Proto.JobCommand} {commandId : Uuid}
    (hid : parseUuid command.commandId "command_id" = .ok commandId)
    (hnew : state.cachedResults.get commandId = none) (script : Script) (a : SchedulerActor) :
    let action := applyAction factory policy state command.action
    let r := perform env (applyCommand factory policy state command) script a
    performed env (applyCommand factory policy state command) script a =
        performed env action script a ∧
      r.2 = (perform env action script a).2 ∧
      r.1.2.remoteJobs = recordsAfter state (perform env action script a).1 ∧
      (Succeeds (perform env action script a).1 → r.1.1.status = .applied) ∧
      (¬ Succeeds (perform env action script a).1 → r.1.1.status ≠ .applied ∧
        r.1.2.catalogRevision = state.catalogRevision ∧
        r.1.2.remoteJobs = state.remoteJobs) := by
  intro action r
  dsimp only [r]
  unfold applyCommand
  rw [hid]
  dsimp only
  rw [hnew]
  unfold applyLocked
  rw [Client.bind_assoc, perform_bind, performed_bind]
  generalize perform env action script a = done
  obtain ⟨result, a'⟩ := done
  cases result with
  | ok =>
    exact ⟨append_nil _, rfl, (cached_records _ _ _).1, fun _ => rfl,
      fun hno => absurd rfl hno⟩
  | error e =>
    obtain ⟨hjobs, hcatalog⟩ := cached_records state commandId
      (commandError command.commandId state.catalogRevision e)
    exact ⟨append_nil _, rfl, hjobs, nofun,
      fun _ => ⟨e.not_applied, hcatalog, hjobs⟩⟩

/-- **Exactly when a command is all-or-nothing**: if one of its requests changes a Job's settings or
    state, all of its requests are served. -/
theorem command_atomic_iff (s : Agent) (command : Proto.JobCommand) (script : Script) :
    Atomic env factory s command script ↔
      ((∃ call ∈ performed env (applyCommand factory s.policy s.controller command) script
          s.scheduler, Shows env call.1 call.2) →
        ∀ call ∈ performed env (applyCommand factory s.policy s.controller command) script
          s.scheduler, Served env call.1 call.2) := by
  by_cases hnew : ∃ commandId, parseUuid command.commandId "command_id" = .ok commandId ∧
      s.controller.cachedResults.get commandId = none
  · obtain ⟨commandId, hid, hnone⟩ := hnew
    obtain ⟨hcalls, -, -, happlied, hrefused⟩ :=
      perform_applyCommand env factory s.policy s.controller hid hnone script s.scheduler
    obtain ⟨hsound, hcommitted⟩ : Whole env Succeeds
        (applyAction factory s.policy s.controller command.action) := whole_applyAction ..
    unfold Atomic
    dsimp only
    rw [hcalls]
    constructor
    · rintro hatomic ⟨call, hcall, hshows⟩
      -- a request that is not served would have left the change behind
      by_contra hno
      obtain ⟨call', hcall', hnot⟩ := not_forall₂.mp hno
      have hbad := hsound.strict script s.scheduler ⟨call', hcall', hnot⟩
      have hsame := (hatomic (hrefused hbad).1).2.2 call hcall
      exact (same_serve_iff (hsound.requests script s.scheduler call hcall)).mp hsame hshows
    · intro hcondition hstatus
      have hbad : ¬ Succeeds (perform env
          (applyAction factory s.policy s.controller command.action) script s.scheduler).1 :=
        fun hok => hstatus (happlied hok)
      refine ⟨(hrefused hbad).2.1, (hrefused hbad).2.2, fun call hcall => ?_⟩
      refine (same_serve_iff (hsound.requests script s.scheduler call hcall)).mpr fun hshows => ?_
      have hshown : ∃ call ∈ performed env
          (applyAction factory s.policy s.controller command.action) script s.scheduler,
          Shows env call.1 call.2 := ⟨call, hcall, hshows⟩
      exact hbad (hcommitted script s.scheduler hshown (hcondition hshown))
  · obtain ⟨result, hdone⟩ := applyCommand_done factory s.policy s.controller
      (fun commandId hid hnone => hnew ⟨commandId, hid, hnone⟩)
    unfold Atomic
    rw [hdone]
    refine ⟨fun _ h => ?_, fun _ _ => ⟨rfl, rfl, fun call hcall => absurd hcall not_mem_nil⟩⟩
    obtain ⟨call, hcall, -⟩ := h
    exact absurd hcall not_mem_nil

end Atomic

/-- **Rejected and half applied.** A Job is to be switched off by a new definition. The update goes
    through; before the disable request arrives, the Job runs once more and fails for good, so the
    scheduler has disabled it and counted its version up. The disable request is refused, the
    command is rejected, and the Job has the new definition's task. -/
theorem upsert_half_applied :
    let r := perform .still (applyCommand .lenient twoPolling.policy twoPolling.controller switchOff)
      runsInBetween twoPolling.scheduler
    r.1.1.status = .rejected ∧
      (twoPolling.scheduler.coreOf 1).map (·.settings.task.adapter) = some (.reporting 1) ∧
      (r.2.coreOf 1).map (·.settings.task.adapter) = some (.reporting 2) ∧
      ¬ Atomic .still .lenient twoPolling switchOff runsInBetween := by
  refine ⟨by decide +kernel, by decide +kernel, by decide +kernel, fun hatomic => ?_⟩
  have hstatus : (perform .still (applyCommand .lenient twoPolling.policy twoPolling.controller
      switchOff) runsInBetween twoPolling.scheduler).1.1.status ≠ .applied := by decide +kernel
  have hchanged : ¬ ∀ call ∈ performed .still (applyCommand .lenient twoPolling.policy
      twoPolling.controller switchOff) runsInBetween twoPolling.scheduler,
      (serve .still call.1 call.2).2.definitionOf 1 = call.1.definitionOf 1 := by decide +kernel
  exact hchanged fun call hcall => (hatomic hstatus).2.2 call hcall 1

end Smalux.Remote
