/-
  Subject:   The Agent's own policy on remote Jobs (policy.rs).

  The denied kinds are a set; here a list without repetitions. The snapshot's binary search in the
  sorted list is membership. Writing the policy file can fail; that is the caller's input
  (`persist`).
-/
import Smalux.Remote.Compiler

namespace Smalux.Remote

open Scheduler

inductive PolicyDenial where
  | allRemoteJobs
  | taskKind (kind : String)
  deriving DecidableEq, Repr

/-- `Display`. -/
def PolicyDenial.text : PolicyDenial → String
  | .allRemoteJobs => "all remote jobs are disabled"
  | .taskKind kind => "task kind `" ++ kind ++ "` is denied by local policy"

structure RemoteJobPolicy where
  revision : Nat := 0
  denyAll : Bool := false
  deniedTaskKinds : List String := []
  deriving DecidableEq, Repr

inductive RemoteJobPolicyChange where
  | addTask (kind : String)
  | removeTask (kind : String)
  | denyAll
  | allowAll
  deriving DecidableEq, Repr

namespace RemoteJobPolicy

variable (policy : RemoteJobPolicy)

/-- Whether Jobs of this kind must not run. -/
def denies (kind : String) : Bool :=
  policy.denyAll || decide (kind ∈ policy.deniedTaskKinds)

def checkInstalled (kind : String) : Except PolicyDenial Unit :=
  if policy.denyAll then .error .allRemoteJobs
  else if kind ∈ policy.deniedTaskKinds then .error (.taskKind kind)
  else .ok ()

/-- A definition without a task kind is left to the compiler. -/
def checkDefinition (definition : Proto.JobDefinition) : Except PolicyDenial Unit :=
  if policy.denyAll then .error .allRemoteJobs
  else
    match definition.task.bind taskKind with
    | some kind => if kind ∈ policy.deniedTaskKinds then .error (.taskKind kind) else .ok ()
    | none => .ok ()

/-- The policy after the change, at the same revision. -/
def candidate : RemoteJobPolicyChange → RemoteJobPolicy
  | .addTask kind =>
    { policy with
      deniedTaskKinds :=
        if kind ∈ policy.deniedTaskKinds then policy.deniedTaskKinds
        else policy.deniedTaskKinds ++ [kind] }
  | .removeTask kind =>
    { policy with deniedTaskKinds := policy.deniedTaskKinds.filter (· ≠ kind) }
  | .denyAll => { policy with denyAll := true }
  | .allowAll => { policy with denyAll := false }

/-- Whether the change is one. -/
def changes : RemoteJobPolicyChange → Bool
  | .addTask kind => decide (kind ∉ policy.deniedTaskKinds)
  | .removeTask kind => decide (kind ∈ policy.deniedTaskKinds)
  | .denyAll => !policy.denyAll
  | .allowAll => policy.denyAll

/-- `RemoteJobPolicyManager::apply`: whether the policy changed, and the policy now in force. A
    change that cannot be numbered or written leaves the old one. -/
def apply (change : RemoteJobPolicyChange) (persist : Except String Unit) :
    Except String Bool × RemoteJobPolicy :=
  if ¬ policy.changes change then (.ok false, policy)
  else
    match checkedSucc policy.revision with
    | none => (.error "Agent Job policy revision overflow", policy)
    | some revision =>
      match persist with
      | .error e => (.error e, policy)
      | .ok _ => (.ok true, { policy.candidate change with revision := revision })

/-- **A change made once is made**: applied again it changes nothing. -/
theorem changes_candidate (change : RemoteJobPolicyChange) (revision : Nat) :
    ({ policy.candidate change with revision := revision } : RemoteJobPolicy).changes change =
      false := by
  cases change with
  | addTask =>
    simp only [changes, candidate]
    split
    · rename_i h
      simp [h]
    · simp
  | removeTask => simp [changes, candidate]
  | denyAll => rfl
  | allowAll => rfl

theorem changes_of_apply {policy policy' : RemoteJobPolicy} {change : RemoteJobPolicyChange}
    {persist : Except String Unit} (h : policy.apply change persist = (.ok true, policy')) :
    policy'.changes change = false := by
  unfold apply at h
  split at h
  · cases h
  · split at h
    · cases h
    · split at h
      · cases h
      · cases h
        exact changes_candidate policy change _

end RemoteJobPolicy

end Smalux.Remote
