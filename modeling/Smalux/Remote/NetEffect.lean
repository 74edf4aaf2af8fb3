/-
  Subject:   What operations do to the controller, whatever the scheduler answers.

  An action that is applied leaves the controller with the catalog the command describes; everything
  else leaves the catalog alone. The answers remembered are touched at the end of a command only.

  * `Net.apply` -- the effect of an action on revision and definitions;
  * **`controller_holds_net`** -- the controller holds the net effect of what has been applied.
-/
import Smalux.Remote.Rules
import Smalux.Remote.Catalog

namespace Smalux.Remote

open Lib Scheduler Table List Client Proto ManagedJob

/-! ## 1. The catalog a controller holds -/

/-- A catalog as a set of definitions, each under the id of its Job. -/
@[ext]
structure Net where
  revision : Nat
  definitions : JobId → Option JobDefinition

namespace Net

def empty : Net := ⟨0, fun _ => none⟩

/-- The effect of an action that is applied. -/
def apply (net : Net) : Action → Net
  | .upsert command =>
    match command.job with
    | some definition =>
      ⟨command.catalogRevision, fun id =>
        if id = uuidOfBytes definition.jobId then some definition else net.definitions id⟩
    | none => net
  | .delete command =>
    ⟨command.catalogRevision, fun id =>
      if id = uuidOfBytes command.jobId then none else net.definitions id⟩
  | .runNow _ => net
  | .replaceAll command =>
    ⟨command.catalogRevision, fun id =>
      command.jobs.find? fun definition => uuidOfBytes definition.jobId = id⟩

/-- Every definition is under the id it carries. -/
def Keyed (net : Net) : Prop :=
  ∀ id definition, net.definitions id = some definition →
    parseUuid definition.jobId "job_id" = .ok id

end Net

def ControllerState.net (state : ControllerState) : Net :=
  ⟨state.catalogRevision, fun id => (state.remoteJobs.get id).map definition⟩

/-- The remembered answers are the same. -/
def SameCache (state state' : ControllerState) : Prop :=
  state'.cachedResults = state.cachedResults ∧ state'.cacheOrder = state.cacheOrder

/-- The catalog, too. -/
def Untouched (state state' : ControllerState) : Prop :=
  SameCache state state' ∧ state'.net = state.net

theorem Untouched.refl (state : ControllerState) : Untouched state state := ⟨⟨rfl, rfl⟩, rfl⟩

/-! ## 2. Operations -/

section Operations

variable {factory : TaskFactory} {policy : RemoteJobPolicy} {state : ControllerState}
  {action : Action}

/-- The action's effect, if it is applied. -/
def Effect (state : ControllerState) (action : Action)
    (result : Except ControlError (ControllerState × Option JobStatus)) : Prop :=
  ∀ state' status, result = .ok (state', status) → SameCache state state' ∧
    state'.net = state.net.apply action ∧ (state.net.Keyed → state'.net.Keyed)

theorem Effect.error (e : ControlError) : Effect state action (.error e) :=
  fun _ _ h => by cases h

/-- The effect, from the records. -/
theorem Effect.of_records {state' : ControllerState} {status : Option JobStatus}
    (hcache : SameCache state state') (hnet : state'.net = state.net.apply action)
    (hkeyed : ∀ id definition, state'.net.definitions id = some definition →
      state.net.definitions id = some definition ∨ parseUuid definition.jobId "job_id" = .ok id) :
    Effect state action (.ok (state', status)) := by
  rintro _ _ ⟨⟩
  refine ⟨hcache, hnet, fun h id definition hd => ?_⟩
  exact (hkeyed id definition hd).elim (h id definition) fun hid => hid

theorem upsert_ends (command : UpsertJob) :
    Client.Ends (Effect state (.upsert command)) (upsert factory policy state command) := by
  refine ends_checked (fun e _ => .error e) fun _ _ =>
    ends_checked (fun e _ => .error e) fun definition hd =>
    ends_checked (fun e _ => .error e) fun job hjob => ends_andThen ?_
  -- the scheduler's answers only decide about the generation
  refine ends_andThen (Client.Ends.of_forall (fun _ => ⟨fun e _ => ?_, fun snapshot _ => ?_⟩) _)
  · exact ⟨fun _ _ => .error _, fun _ h => by cases h⟩
  refine And.intro (fun _ h => by cases h) ?_
  rintro _ ⟨⟩
  obtain ⟨rfl, -, hid, -⟩ := compileChecked_ok hjob
  have hcommand : command.job = some job.definition := by
    cases hc : command.job with
    | none => rw [hc] at hd; cases hd
    | some => rw [hc] at hd; exact congrArg some (Except.ok.inj hd)
  have hget : ∀ id, ((state.remoteJobs.insert job.id (job.managed snapshot.version)).get id).map
      definition = if id = job.id then some job.definition else
        (state.remoteJobs.get id).map definition := fun id => by
    rw [get_insert]
    split <;> rfl
  refine .of_records ⟨rfl, rfl⟩ ?_ fun id d hd => ?_
  · simp only [Net.apply, hcommand, (parseUuid_ok hid).2]
    exact Net.ext rfl (funext hget)
  · have hd := (hget id).symm.trans hd
    split at hd
    · rename_i heq
      rw [heq, ← Option.some.inj hd]
      exact .inr hid
    · exact .inl hd

theorem delete_ends (command : DeleteJob) :
    Client.Ends (Effect state (.delete command)) (delete state command) := by
  refine ends_checked (fun e _ => .error e) fun _ _ =>
    ends_checked (fun e _ => .error e) fun (id, current) hc =>
    ends_onScheduler (fun _ => .error _) fun _ => ?_
  have hget : ∀ id', ((state.remoteJobs.remove id).get id').map definition =
      if id' = id then none else (state.remoteJobs.get id').map definition := fun id' => by
    rw [get_remove]
    split <;> rfl
  refine .of_records ⟨rfl, rfl⟩ ?_ fun id' d hd => ?_
  · simp only [Net.apply, (expectManaged_ok hc).1]
    exact Net.ext rfl (funext hget)
  · have hd := (hget id').symm.trans hd
    split at hd
    · cases hd
    · exact .inl hd

theorem runNow_ends (command : RunJobNow) :
    Client.Ends (Effect state (.runNow command)) (runNow policy state command) := by
  refine ends_checked (fun e _ => .error e) fun (id, current) hc =>
    ends_checked (fun e _ => .error e) fun _ _ =>
    ends_onScheduler (fun _ => .error _) fun snapshot => ?_
  have hnet : ∀ id', ((state.remoteJobs.insert id { current with
      generation := snapshot.version }).get id').map definition =
      (state.remoteJobs.get id').map definition := fun id' => by
    rw [get_insert]
    split
    · rename_i heq
      rw [heq, (expectManaged_ok hc).2]
      rfl
    · rfl
  exact .of_records ⟨rfl, rfl⟩ (Net.ext rfl (funext hnet)) fun id' d hd =>
    .inl ((hnet id').symm.trans hd)

theorem replaceAll_ends (command : ReplaceAllJobs) :
    Client.Ends (Effect state (.replaceAll command)) (replaceAll factory policy state command) := by
  refine ends_checked (fun e _ => .error e) fun _ _ => ends_checked (fun e _ => .error e) fun jobs hjobs =>
    ends_onScheduler (fun _ => .error _) fun _ => ends_checked (fun e _ => .error e) fun _ _ =>
    ends_checked (fun e _ => .error e) fun _ _ => ends_onScheduler (fun _ => .error _) fun _ =>
    ends_checked (fun e _ => .error e) fun _ _ => ends_checked (fun e _ => .error e) fun _ _ =>
    ends_onScheduler (fun _ => .error _) fun applied =>
    ends_checked (fun e _ => .error e) fun remoteJobs hrecord => ?_
  obtain ⟨hnodup, -, hdefs, hids⟩ := compileAll_ok hjobs
  have hid : ∀ job ∈ jobs, uuidOfBytes job.definition.jobId = job.id := fun job hjob =>
    (parseUuid_ok (hids job hjob).2.1).2
  -- the record has the definition with that id, if there is one
  have hget : ∀ id, (remoteJobs.get id).map definition =
      command.jobs.find? fun d => uuidOfBytes d.jobId = id := by
    intro id
    rw [← hdefs]
    cases hfind : (jobs.map CompiledJob.definition).find? fun d => uuidOfBytes d.jobId = id with
    | none =>
      rw [recordApplied_other state hrecord fun hmem => ?_]
      · rfl
      obtain ⟨job, hjob, rfl⟩ := mem_map.mp hmem
      exact List.find?_eq_none.mp hfind _ (mem_map_of_mem hjob) (by simpa using hid job hjob)
    | some =>
      obtain ⟨job, hjob, rfl⟩ := mem_map.mp (List.mem_of_find?_eq_some hfind)
      obtain ⟨_, -, hm⟩ := recordApplied_get state hrecord hnodup hjob
      have heq : job.id = id := (hid job hjob).symm.trans (by simpa using List.find?_some hfind)
      rw [← heq, hm]
      rfl
  refine .of_records ⟨rfl, rfl⟩ (Net.ext rfl (funext hget)) fun id d hd => .inr ?_
  have hfind := (hget id).symm.trans hd
  rw [← hdefs] at hfind
  obtain ⟨job, hjob, rfl⟩ := mem_map.mp (List.mem_of_find?_eq_some hfind)
  have heq : job.id = id := (hid job hjob).symm.trans (by simpa using List.find?_some hfind)
  exact heq ▸ (hids job hjob).2.1

/-- **An action that is applied has its effect**, whatever the scheduler answers. -/
theorem applyAction_ends (action : Action) :
    Client.Ends (Effect state action) (applyAction factory policy state (some action)) := by
  cases action with
  | upsert command => exact upsert_ends command
  | delete command => exact delete_ends command
  | runNow command => exact runNow_ends command
  | replaceAll command => exact replaceAll_ends command

/-- Disabling Jobs touches generations only. -/
theorem disableAll_ends (reason : String) : ∀ (jobs : List (JobId × ManagedJob))
    (state : ControllerState), Client.Ends (fun r : Except SchedulerError Unit × ControllerState =>
      Untouched state r.2) (disableAll reason jobs state)
  | [], state => Untouched.refl state
  | (id, managed) :: rest, state => by
    refine ends_bind (Client.Ends.of_forall (fun result => ?_) _)
    cases result with
    | error => exact Untouched.refl state
    | ok =>
      refine (disableAll_ends reason rest _).mono fun r hr => ⟨hr.1, hr.2.trans ?_⟩
      refine Net.ext rfl (funext fun id' => ?_)
      dsimp only [ControllerState.net]
      rw [get_modify]
      split
      · rw [Option.map_map]
        rfl
      · rfl

theorem updatePolicy_ends (change : RemoteJobPolicyChange) (persist : Except String Unit) :
    Client.Ends (fun r : Except String Nat × RemoteJobPolicy × ControllerState =>
      Untouched state r.2.2) (updatePolicy policy state change persist) := by
  unfold updatePolicy
  split
  · exact Untouched.refl state
  · exact Untouched.refl state
  · refine ends_bind ((disableAll_ends policyReason _ state).mono fun r hr => ?_)
    rcases r with ⟨_ | _, state'⟩ <;> exact hr

theorem pausePlugin_ends (plugin : String × String) :
    Client.Ends (fun r : Except String Nat × ControllerState => Untouched state r.2)
      (pausePlugin state plugin) := by
  unfold pausePlugin
  split
  · exact Untouched.refl state
  · refine ends_bind ((disableAll_ends pauseReason _ state).mono fun r hr => ?_)
    rcases r with ⟨_ | _, state'⟩ <;> exact hr

/-- What deleting Jobs leaves: none of them, or a part of what was there. -/
def Cleared (jobs : List (JobId × ManagedJob)) (state : ControllerState)
    (r : Except SchedulerError Unit × ControllerState) : Prop :=
  SameCache state r.2 ∧
    (∀ id, r.2.remoteJobs.get id = none ∨ r.2.remoteJobs.get id = state.remoteJobs.get id) ∧
    ((∃ e, r.1 = .error e) ∧ r.2.catalogRevision = state.catalogRevision ∨
      r.1 = .ok () ∧ r.2.catalogRevision = 0 ∧
        ∀ id ∈ jobs.map Prod.fst, r.2.remoteJobs.get id = none)

theorem deleteAll_ends : ∀ (jobs : List (JobId × ManagedJob)) (state : ControllerState),
    Client.Ends (Cleared jobs state) (deleteAll jobs state)
  | [], _ => ⟨⟨rfl, rfl⟩, fun _ => .inr rfl, .inr ⟨rfl, rfl, nofun⟩⟩
  | (id, managed) :: rest, state => by
    refine ends_bind (Client.Ends.of_forall (fun result => ?_) _)
    cases result with
    | error e => exact ⟨⟨rfl, rfl⟩, fun _ => .inr rfl, .inl ⟨⟨e, rfl⟩, rfl⟩⟩
    | ok _ =>
      refine (deleteAll_ends rest _).mono fun r => ?_
      rintro ⟨hcache, hpart, hend⟩
      have hpart' : ∀ id', r.2.remoteJobs.get id' = none ∨
          id' ≠ id ∧ r.2.remoteJobs.get id' = state.remoteJobs.get id' := by
        intro id'
        have h := hpart id'
        rw [get_remove] at h
        split at h
        · exact .inl (h.elim (fun h => h) fun h => h)
        · rename_i hne
          exact h.imp_right fun h => ⟨hne, h⟩
      refine ⟨hcache, fun id' => (hpart' id').imp_right And.right, hend.imp_right ?_⟩
      rintro ⟨hok, hrevision, hgone⟩
      refine ⟨hok, hrevision, fun id' hid' => ?_⟩
      rcases mem_cons.mp hid' with rfl | hid'
      · exact (hpart' _).elim (fun h => h) fun h => absurd rfl h.1
      · exact hgone id' hid'

end Operations

/-! ## 3. Commands -/

section Commands

variable {factory : TaskFactory} {policy : RemoteJobPolicy} {state : ControllerState}

/-- The answer is remembered, if it is one to remember. -/
def noteResult (state : ControllerState) (id : Uuid) (result : JobCommandResult) :
    ControllerState :=
  if shouldCacheResult result then cacheResult state id result else state

theorem net_noteResult (id : Uuid) (result : JobCommandResult) :
    (noteResult state id result).net = state.net := by
  unfold noteResult
  split <;> rfl

/-- How a command ends. -/
inductive Commanded (state : ControllerState) (command : JobCommand) :
    JobCommandResult × ControllerState → Prop
  | invalid {e result} (hid : parseUuid command.commandId "command_id" = .error e)
      (hstatus : result.status ≠ .applied) : Commanded state command (result, state)
  | repeated {id result} (hid : parseUuid command.commandId "command_id" = .ok id)
      (hold : state.cachedResults.get id = some result) : Commanded state command (result, state)
  | refused {id result} (hid : parseUuid command.commandId "command_id" = .ok id)
      (hnew : state.cachedResults.get id = none) (hstatus : result.status ≠ .applied) :
      Commanded state command (result, noteResult state id result)
  | applied {id result action state'} (hid : parseUuid command.commandId "command_id" = .ok id)
      (hnew : state.cachedResults.get id = none) (haction : command.action = some action)
      (hcache : SameCache state state') (hnet : state'.net = state.net.apply action)
      (hkeyed : state.net.Keyed → state'.net.Keyed) (hstatus : result.status = .applied) :
      Commanded state command (result, noteResult state' id result)

theorem applyCommand_ends (command : JobCommand) :
    Client.Ends (Commanded state command) (applyCommand factory policy state command) := by
  unfold applyCommand
  split
  · rename_i e hid
    exact .invalid hid (ControlError.not_applied _)
  · rename_i id hid
    split
    · rename_i result hold
      exact .repeated hid hold
    · rename_i hnew
      refine ends_bind (ends_bind ?_)
      cases haction : command.action with
      | none => exact .refused hid hnew (ControlError.not_applied _)
      | some action =>
        refine (applyAction_ends action).mono fun result heffect => ?_
        rcases result with e | ⟨state', status⟩
        · exact .refused hid hnew e.not_applied
        · obtain ⟨hcache, hnet, hkeyed⟩ := heffect state' status rfl
          exact .applied hid hnew haction hcache hnet hkeyed rfl

end Commands

/-! ## 4. The net effect of a run -/

section Runs

variable (env : Env)

/-- The action of a command that is applied now: not refused, and not answered from memory. -/
def Agent.appliedAction (s : Agent) (command : JobCommand)
    (result : JobCommandResult) : Option Action :=
  match parseUuid command.commandId "command_id" with
  | .ok id =>
    if s.controller.cachedResults.get id = none ∧ result.status = .applied then command.action
    else none
  | .error _ => none

/-- The net effect after one more act. Clearing takes everything; if it fails, what it had taken. -/
def Net.after (s : Agent) (net : Net) : Act → Net
  | .command factory command script =>
    let result :=
      (perform env (applyCommand factory s.policy s.controller command) script s.scheduler).1.1
    ((s.appliedAction command result).map net.apply).getD net
  | .clearRemoteJobs script =>
    let r := (perform env (Remote.clearRemoteJobs s.controller) script s.scheduler).1
    if r.1.isOk then .empty
    else { net with
      definitions := fun id => if r.2.remoteJobs.contains id then net.definitions id else none }
  | _ => net

/-- The Agent and the net effect of what it has applied. -/
def followNet (w : Agent × Net) (act : Act) : Agent × Net :=
  (w.1.step env act, w.2.after env w.1 act)

/-- Anything but a command of the Server and the loss of its catalog. -/
def Act.IsLocal : Act → Prop
  | .command _ _ _ | .clearRemoteJobs _ => False
  | _ => True

theorem net_rehash (state : ControllerState) (entries : List (JobId × ManagedJob)) :
    (state.rehash entries).net = state.net := by
  refine Net.ext ?_ (funext fun id =>
    congrArg (Option.map definition) (get_rehash state entries id))
  unfold ControllerState.rehash
  split <;> rfl

theorem Act.IsLocal.untouched {act : Act} (hact : act.IsLocal) (s : Agent) :
    Untouched s.controller (s.step env act).controller := by
  cases act with
  | command | clearRemoteJobs => exact hact.elim
  | internal | resumePlugin => exact .refl _
  | updatePolicy change persist => exact (updatePolicy_ends change persist).exec _ _ _ _
  | pausePlugin plugin => exact (pausePlugin_ends plugin).exec _ _ _ _
  | rehash entries =>
    refine ⟨?_, net_rehash _ _⟩
    show SameCache _ (s.controller.rehash entries)
    unfold ControllerState.rehash
    split <;> exact ⟨rfl, rfl⟩

/-- What is left of a catalog that is cleared. -/
theorem Cleared.net {state : ControllerState} {r : Except SchedulerError Unit × ControllerState}
    (h : Cleared state.remoteJobs.entries state r) :
    r.2.net = if r.1.isOk then Net.empty else { state.net with
      definitions := fun id => if r.2.remoteJobs.contains id then state.net.definitions id
        else none } := by
  obtain ⟨-, hpart, ⟨⟨e, he⟩, hrevision⟩ | ⟨hok, hrevision, hgone⟩⟩ := h
  · rw [he]
    refine Net.ext hrevision (funext fun id => ?_)
    show (r.2.remoteJobs.get id).map _ = if (r.2.remoteJobs.get id).isSome then
      (state.remoteJobs.get id).map _ else none
    rcases hpart id with hnone | hsame
    · rw [hnone]
      rfl
    · rw [hsame]
      cases state.remoteJobs.get id <;> rfl
  · rw [hok]
    refine Net.ext hrevision (funext fun id => ?_)
    have hnone : r.2.remoteJobs.get id = none := by
      by_cases hid : id ∈ state.remoteJobs.keys
      · exact hgone id hid
      · rcases hpart id with hnone | hsame
        · exact hnone
        · rw [hsame]
          exact get_eq_none_iff.mpr hid
    show (r.2.remoteJobs.get id).map _ = none
    rw [hnone]
    rfl

/-- **The controller holds the net effect** of what has been applied. -/
def Holds (w : Agent × Net) : Prop := w.1.controller.net = w.2 ∧ w.2.Keyed

theorem commanded (factory : TaskFactory) (s : Agent) (command : JobCommand)
    (script : Script) :
    Commanded s.controller command
      (perform env (applyCommand factory s.policy s.controller command) script s.scheduler).1 :=
  (applyCommand_ends command).exec _ _ _ _

theorem Holds.step {w : Agent × Net} (h : Holds w) (act : Act) :
    Holds (followNet env w act) := by
  obtain ⟨s, net⟩ := w
  obtain ⟨hnet, hkeyed⟩ : s.controller.net = net ∧ net.Keyed := h
  subst hnet
  have hlocal : act.IsLocal → s.controller.net.after env s act = s.controller.net →
      Holds (followNet env (s, s.controller.net) act) := fun hact hafter =>
    ⟨(hact.untouched env s).2.trans hafter.symm, hafter.symm.subst (motive := Net.Keyed) hkeyed⟩
  cases act with
  | internal | resumePlugin | rehash | updatePolicy | pausePlugin => exact hlocal trivial rfl
  | clearRemoteJobs script =>
    have hnet := ((deleteAll_ends s.controller.remoteJobs.entries s.controller).exec (serve env)
      (internalTurn env) script s.scheduler).net
    refine ⟨hnet, fun id definition hd => ?_⟩
    dsimp only [followNet, Net.after] at hd
    split at hd
    · cases hd
    · dsimp only at hd
      split at hd
      · exact hkeyed id definition hd
      · cases hd
  | command factory command script =>
    have hends := commanded env factory s command script
    dsimp only [followNet, Agent.step, Net.after, Agent.appliedAction, Holds]
    generalize (perform env (applyCommand factory s.policy s.controller command) script
      s.scheduler).1 = r at hends ⊢
    cases hends with
    | invalid hid =>
      rw [hid]
      exact ⟨rfl, hkeyed⟩
    | repeated hid hold =>
      rw [hid]
      dsimp only
      rw [if_neg fun h => by rw [hold] at h; cases h.1]
      exact ⟨rfl, hkeyed⟩
    | refused hid hnew hstatus =>
      rw [hid]
      dsimp only
      rw [if_neg fun h => hstatus h.2]
      exact ⟨net_noteResult _ _, hkeyed⟩
    | applied hid hnew haction hcache hnet hkeyed' hstatus =>
      rw [hid]
      dsimp only
      rw [if_pos ⟨hnew, hstatus⟩, haction]
      exact ⟨(net_noteResult _ _).trans hnet, hnet.subst (motive := Net.Keyed) (hkeyed' hkeyed)⟩

/-- **The controller refines the abstract catalog**: in every run, whatever the actor does between
    the calls of an operation, it holds the net effect of the commands it has answered as applied. -/
theorem controller_holds_net (policy : RemoteJobPolicy) (scheduler : SchedulerActor)
    (acts : List Act) :
    Throughout (followNet env) (fun w => w.1.controller.net = w.2)
      (.fresh policy scheduler, .empty) acts :=
  throughout_of_invariant (fun _ act (h : Holds _) _ => h.step env act) (fun _ h => h.1)
    ⟨rfl, fun _ _ h => by cases h⟩ (along_trivial acts _)

end Runs

end Smalux.Remote
