/-
  Subject:   The offline timer of the remote Jobs, beside the Agent's event loop (main.rs).

  The first Disconnected spawns a task that waits for a deadline and then clears the remote Jobs; a
  Connected cancels the task and waits for its end, wherever it has come by then. In which state it
  finds the controller and what the Scheduler answers is left open.

  * `OfflineJobExpiry.step` -- an event is handled, or the task is polled;
  * **`offline_expiry_fenced`** -- nothing is cleared once `cancel` has returned, and a time offline has
    one deadline and one clearing.
-/
import Smalux.Lib.Record
import Smalux.Remote.Controller

namespace Smalux.Remote

open Lib Scheduler

/-- The task that `start` spawns. -/
inductive ExpiryTask where
  | spawned
  | waiting (deadline : Nat)
  | clearing (rest : Calls (Except SchedulerError Unit × ControllerState))
  | ended

inductive ExpiryEntry where
  | connected
  /-- `cancel` has returned -/
  | returned
  | disconnected
  | armed (deadline : Nat)
  -- steps of `clear_remote_jobs`
  | begun
  | asked
  | finished

/-- One poll: `select!` is biased and looks at the cancellation first, until the timer has fired. -/
def ExpiryTask.poll (timeout now : Nat) (cancelled : Bool) (state : ControllerState)
    (answer : Answer) : ExpiryTask → ExpiryTask × List ExpiryEntry
  | .spawned =>
    if cancelled then (.ended, []) else (.waiting (now + timeout), [.armed (now + timeout)])
  | .waiting deadline =>
    if cancelled then (.ended, [])
    else if deadline ≤ now then (.clearing (clearRemoteJobs state), [.begun])
    else (.waiting deadline, [])
  | .clearing (.ask _ resume) => (.clearing (resume answer), [.asked])
  | .clearing (.done _) => (.ended, [.finished])
  | .ended => (.ended, [])

structure OfflineJobExpiry where
  /-- the task, and whether `cancel` has taken it out of `active` and waits for it -/
  task : Option (ExpiryTask × Bool) := none
  now : Nat := 0
  /-- what has happened, the last first -/
  log : List ExpiryEntry := []

inductive ExpiryAct where
  | pass (time : Nat)
  | connected
  | disconnected
  | poll (state : ControllerState) (answer : Answer)
  | join

/-- While it is inside `cancel`, the loop takes no event. -/
def OfflineJobExpiry.step (timeout : Nat) (s : OfflineJobExpiry) : ExpiryAct → OfflineJobExpiry
  | .pass time => { s with now := s.now + time }
  | .connected =>
    match s.task with
    | none => { s with log := .returned :: .connected :: s.log }
    | some (task, false) => { s with task := some (task, true), log := .connected :: s.log }
    | some (_, true) => s
  | .disconnected =>
    match s.task with
    | none => { s with task := some (.spawned, false), log := .disconnected :: s.log }
    | some (_, false) => { s with log := .disconnected :: s.log }
    | some (_, true) => s
  | .poll state answer =>
    match s.task with
    | none => s
    | some (task, cancelled) =>
      let r := task.poll timeout s.now cancelled state answer
      { s with task := some (r.1, cancelled), log := r.2 ++ s.log }
  | .join =>
    match s.task with
    | some (.ended, true) => { s with task := none, log := .returned :: s.log }
    | _ => s

namespace ExpiryEntry

def isClearing : ExpiryEntry → Bool
  | .begun | .asked | .finished => true
  | _ => false

/-- No Disconnected since `cancel` returned. -/
def quiet : List ExpiryEntry → Bool
  | [] | .returned :: _ => true
  | .disconnected :: _ => false
  | _ :: past => quiet past

/-- The timers set and the clearings begun since the last Connected. -/
def marks : List ExpiryEntry → List ExpiryEntry
  | [] | .connected :: _ => []
  | .armed deadline :: past => .armed deadline :: marks past
  | .begun :: past => .begun :: marks past
  | _ :: past => marks past

/-- No clearing goes on once `cancel` has returned. -/
abbrev Silent (log : List ExpiryEntry) : Prop :=
  Always (fun e past => e.isClearing = true → quiet past = false) log

/-- How far the task has come shows in what it has done. -/
def Traced (log : List ExpiryEntry) : Option (ExpiryTask × Bool) → Prop
  | none | some (_, true) | some (.spawned, false) => marks log = []
  | some (.waiting deadline, false) => marks log = [.armed deadline]
  | some (.clearing _, false) | some (.ended, false) =>
    ∃ deadline, marks log = [.begun, .armed deadline]

end ExpiryEntry

open ExpiryEntry

section Poll

variable {timeout now : Nat} {state : ControllerState} {answer : Answer} {task : ExpiryTask}
  {cancelled : Bool} {log : List ExpiryEntry}

theorem poll_silent (hsilent : Silent log) (hbusy : quiet log = false) :
    Silent ((task.poll timeout now cancelled state answer).2 ++ log) ∧
      quiet ((task.poll timeout now cancelled state answer).2 ++ log) = false := by
  fun_cases ExpiryTask.poll timeout now cancelled state answer task <;>
    first | exact ⟨hsilent, hbusy⟩ | exact ⟨⟨fun _ => hbusy, hsilent⟩, hbusy⟩

/-- A cancelled task sets no timer and begins no clearing. -/
theorem poll_traced (h : Traced log (some (task, cancelled))) :
    Traced ((task.poll timeout now cancelled state answer).2 ++ log)
      (some ((task.poll timeout now cancelled state answer).1, cancelled)) := by
  cases task with
  | spawned =>
    cases cancelled with
    | true => exact h
    | false => exact congrArg _ h
  | waiting deadline =>
    cases cancelled with
    | true => exact h
    | false =>
      simp only [ExpiryTask.poll, Bool.false_eq_true, if_false]
      split
      · exact ⟨deadline, congrArg _ h⟩
      · exact h
  | clearing rest => cases rest <;> cases cancelled <;> exact h
  | ended => exact h

end Poll

namespace OfflineJobExpiry

/-- However many Disconnected there are between two Connected, one timer is set, which stays, and one
    clearing begun. -/
structure Fenced (s : OfflineJobExpiry) : Prop where
  silent : Silent s.log
  once : ∃ deadline, marks s.log <:+ [.begun, .armed deadline]
  kept : ∀ deadline, s.task = some (.waiting deadline, false) → marks s.log = [.armed deadline]

structure Inv (s : OfflineJobExpiry) : Prop where
  silent : Silent s.log
  busy : s.task ≠ none → quiet s.log = false
  traced : Traced s.log s.task

theorem Inv.step {s : OfflineJobExpiry} (h : Inv s) (timeout : Nat) (act : ExpiryAct) :
    Inv (s.step timeout act) := by
  have hs := h
  obtain ⟨task, now, log⟩ := s
  obtain ⟨hsilent, hbusy, htraced⟩ := h
  cases task with
  | none =>
    cases act with
    | connected => exact ⟨⟨nofun, nofun, hsilent⟩, fun hn => absurd rfl hn, rfl⟩
    | disconnected => exact ⟨⟨nofun, hsilent⟩, fun _ => rfl, htraced⟩
    | pass | poll | join => exact { hs with }
  | some entry =>
    obtain ⟨task, cancelled⟩ := entry
    have hb : quiet log = false := hbusy nofun
    cases act with
    | pass => exact { hs with }
    | connected =>
      cases cancelled with
      | true => exact hs
      | false => exact ⟨⟨nofun, hsilent⟩, fun _ => hb, rfl⟩
    | disconnected =>
      cases cancelled with
      | true => exact hs
      | false => exact ⟨⟨nofun, hsilent⟩, fun _ => rfl, htraced⟩
    | poll =>
      exact ⟨(poll_silent hsilent hb).1, fun _ => (poll_silent hsilent hb).2, poll_traced htraced⟩
    | join =>
      cases task with
      | spawned | waiting | clearing => exact hs
      | ended =>
        cases cancelled with
        | true => exact ⟨⟨nofun, hsilent⟩, fun hn => absurd rfl hn, htraced⟩
        | false => exact hs

theorem Inv.fenced {s : OfflineJobExpiry} (h : Inv s) : Fenced s := by
  have ht := h.traced
  refine ⟨h.silent, ?_, fun deadline hw => by rwa [hw] at ht⟩
  unfold Traced at ht
  split at ht <;> first
    | exact ht.imp fun _ hmarks => ⟨[], hmarks⟩
    | exact ⟨_, [.begun], congrArg _ ht⟩
    | exact ⟨0, ht ▸ List.nil_suffix⟩

/-- **Offline expiry is fenced**, in whatever order events and polls come. -/
theorem offline_expiry_fenced (timeout : Nat) (acts : List ExpiryAct) :
    Throughout (step timeout) Fenced {} acts := by
  have hstart : Inv {} := ⟨trivial, fun hn => absurd rfl hn, rfl⟩
  exact throughout_of_invariant (fun _ act h _ => h.step timeout act) (fun _ h => h.fenced) hstart
    (along_trivial acts _)

end OfflineJobExpiry

end Smalux.Remote
