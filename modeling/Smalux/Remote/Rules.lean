/-
  Subject:   Rules for the programs of the controller.

  `Wp` is the weakest precondition of a program, `Client.Ends` what holds of its value whatever the
  scheduler answers; there is a rule for each way of composing one.
-/
import Smalux.Remote.Agent

namespace Smalux.Remote

open Lib Scheduler SchedulerActor

section Programs

variable {env : Env} {R : SchedulerActor → SchedulerActor → Prop}
  {ok must : SchedulerActor → Command → Prop} {α β ε : Type} {a : SchedulerActor}
  {state : ControllerState} {post : Table JobId ManagedJob → SchedulerActor → Prop} {Q : α → Prop}
  {policy : RemoteJobPolicy} {x : Except ControlError α} {f : α → Calls (Except ControlError β)}

/-- What must hold before a program: see `Client.wp`. -/
abbrev Wp (env : Env) (R : SchedulerActor → SchedulerActor → Prop)
    (ok must : SchedulerActor → Command → Prop) (p : Calls α) (post : α → SchedulerActor → Prop)
    (a : SchedulerActor) : Prop := Client.wp (serve env) R ok must p post a

theorem wp_checked {post : Except ControlError β → SchedulerActor → Prop}
    (herror : ∀ e, post (.error e) a)
    (hok : ∀ value, x = .ok value → Wp env R ok must (f value) post a) :
    Wp env R ok must (checked x f) post a := by
  cases x with
  | error e => exact herror e
  | ok value => exact hok value rfl

theorem wp_andThen {p : Calls (Except ε α)} {f : α → Calls (Except ε β)}
    {post : Except ε β → SchedulerActor → Prop}
    (h : Wp env R ok must p (fun result a' => (∀ e, result = .error e → post (.error e) a') ∧
      ∀ value, result = .ok value → Wp env R ok must (f value) post a') a) :
    Wp env R ok must (andThen p f) post a := by
  refine (Client.wp_bind _ _ _ _ p _ post a).mpr (Client.wp_mono (fun result a' hr => ?_) h)
  cases result with
  | error e => exact hr.1 e rfl
  | ok value => exact hr.2 value rfl

/-- `?` after a request: its answer is an error, and the program ends, or a value. -/
theorem wp_onScheduler {command : Command} {read : Answer → Except SchedulerError α}
    {post : Except ControlError β → SchedulerActor → Prop}
    (h : ∀ found, R a found → ok found command → must found command ∧
      (∀ e, read (serve env found command).1 = .error e →
        post (.error (schedulerError e)) (serve env found command).2) ∧
      ∀ value, read (serve env found command).1 = .ok value →
        Wp env R ok must (f value) post (serve env found command).2) :
    Wp env R ok must (onScheduler (.ask command fun answer => .done (read answer)) f) post a := by
  intro found hR hok
  obtain ⟨hmust, herror, hvalue⟩ := h found hR hok
  refine ⟨hmust, ?_⟩
  dsimp only [onScheduler, bind, Client.bind]
  cases hread : read (serve env found command).1 with
  | error e => exact herror e hread
  | ok value => exact hvalue value hread

/-- The two premises of `wp_onScheduler` when the answer is known: an error, -/
theorem answer_error {x : Except ε α} {e : ε} {P : ε → Prop} (hx : x = .error e) (h : P e) :
    (∀ e', x = .error e' → P e') ∧ ∀ value, x = .ok value → Q value := by
  subst hx
  exact ⟨fun e' he => Except.error.inj he ▸ h, fun value hv => by cases hv⟩

/-- or a value. -/
theorem answer_ok {x : Except ε α} {value : α} {P : ε → Prop} (hx : x = .ok value) (h : Q value) :
    (∀ e, x = .error e → P e) ∧ ∀ value', x = .ok value' → Q value' := by
  subst hx
  exact ⟨fun e he => (by cases he), fun value' hv => Except.ok.inj hv ▸ h⟩

/-- The records of remote Jobs after an action: a failed one leaves them as they are. -/
def recordsAfter (state : ControllerState) :
    Except ControlError (ControllerState × Option Proto.JobStatus) → Table JobId ManagedJob
  | .ok (state', _) => state'.remoteJobs
  | .error _ => state.remoteJobs

/-- A command is done: at once, or with its action and the note of the answer, which touches no
    record of a Job. -/
theorem wp_applyCommand {factory : TaskFactory} {command : Proto.JobCommand}
    (hnone : post state.remoteJobs a)
    (h : Wp env R ok must (applyAction factory policy state command.action)
      (fun result a' => post (recordsAfter state result) a') a) :
    Wp env R ok must (applyCommand factory policy state command)
      (fun r a' => post r.2.remoteJobs a') a := by
  unfold applyCommand
  split
  · exact hnone
  · split
    · exact hnone
    · refine (Client.wp_bind _ _ _ _ _ _ _ a).mpr ((Client.wp_bind _ _ _ _ _ _ _ a).mpr ?_)
      refine Client.wp_mono (fun result a' hr => ?_) h
      rcases result with e | ⟨state', status⟩
      all_goals
        show post (if _ then _ else _ : ControllerState).remoteJobs a'
        split <;> exact hr

/-- `update_policy` does to the records what its loop does. -/
theorem wp_updatePolicy {change : RemoteJobPolicyChange} {persist : Except String Unit}
    (hloop : ∀ jobs, Wp env R ok must (disableAll policyReason jobs state)
      (fun r a' => post r.2.remoteJobs a') a) (h : post state.remoteJobs a) :
    Wp env R ok must (updatePolicy policy state change persist)
      (fun r a' => post r.2.2.remoteJobs a') a := by
  unfold updatePolicy
  split
  · exact h
  · exact h
  · refine (Client.wp_bind _ _ _ _ _ _ _ _).mpr (Client.wp_mono (fun r a' hr => ?_) (hloop _))
    rcases r with ⟨_ | _, state'⟩ <;> exact hr

/-- So does `pause_plugin`. -/
theorem wp_pausePlugin {plugin : String × String}
    (hloop : ∀ jobs, Wp env R ok must (disableAll pauseReason jobs state)
      (fun r a' => post r.2.remoteJobs a') a) (h : post state.remoteJobs a) :
    Wp env R ok must (pausePlugin state plugin) (fun r a' => post r.2.remoteJobs a') a := by
  unfold pausePlugin
  split
  · exact h
  · refine (Client.wp_bind _ _ _ _ _ _ _ _).mpr (Client.wp_mono (fun r a' hr => ?_) (hloop _))
    rcases r with ⟨_ | _, state'⟩ <;> exact hr

theorem ends_checked {P : Except ControlError β → Prop}
    (herror : ∀ e, x = .error e → P (.error e))
    (hok : ∀ value, x = .ok value → Client.Ends P (f value)) : Client.Ends P (checked x f) := by
  cases x with
  | error e => exact herror e rfl
  | ok value => exact hok value rfl

theorem ends_andThen {p : Calls (Except ε α)} {f : α → Calls (Except ε β)} {P : Except ε β → Prop}
    (h : Client.Ends (fun result => (∀ e, result = .error e → P (.error e)) ∧
      ∀ value, result = .ok value → Client.Ends P (f value)) p) : Client.Ends P (andThen p f) := by
  induction p with
  | done result =>
    cases result with
    | error e => exact h.1 e rfl
    | ok value => exact h.2 value rfl
  | ask request resume ih => exact fun answer => ih answer (h answer)

theorem ends_onScheduler {p : Calls (Except SchedulerError α)} {P : Except ControlError β → Prop}
    (herror : ∀ e, P (.error (schedulerError e))) (hok : ∀ value, Client.Ends P (f value)) :
    Client.Ends P (onScheduler p f) := by
  refine Client.ends_bind (Client.Ends.of_forall (fun result => ?_) p)
  cases result with
  | error => exact herror _
  | ok value => exact hok value

end Programs

end Smalux.Remote
