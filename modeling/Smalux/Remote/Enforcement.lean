/-
  Subject:   Does a local policy take effect on the remote Jobs that are there?

  The policy is stored first; then the Jobs it denies are disabled one by one, each at the
  generation the controller has recorded. The first refusal ends the loop, and the same change made
  again changes nothing, so it does not start the loop again.

  * `disableAll_off_iff` -- exactly when the loop reaches every Job;
  * **`policy_enforced_iff`** -- exactly when the change is enforced, repetitions included.
-/
import Smalux.Remote.Agent

namespace Smalux.Remote

open Lib Scheduler SchedulerActor List

variable {settings : JobSettings} {version : Nat} {policy policy' : RemoteJobPolicy}
  {persist : Except String Unit}

/-! ## 1. Jobs that are off -/

/-- The Job is not Enabled. -/
def Off (a : SchedulerActor) (id : JobId) : Prop :=
  ∀ core, a.coreOf id = some core → core.state ≠ .enabled

section Off

variable {a a' : SchedulerActor} {id id' : JobId}

theorem Off.same (h : Off a id) (hs : SameCores a a') : Off a' id :=
  fun core hc => h core ((hs id).symm.trans hc)

theorem Off.calm (h : Off a id) (hc : Calm a a') : Off a' id := by
  intro core' hcore'
  obtain ⟨core, hcore, hcalm⟩ := hc id core' hcore'
  exact hcalm.not_enabled (h core hcore)

theorem off_of_disabled {reason : String}
    (h : CoreSet a id (some ⟨settings, .disabled reason, version⟩) a') : Off a' id := by
  intro core hc
  rw [h.here] at hc
  cases hc
  exact nofun

theorem Off.disabled {reason : String} (h : Off a id')
    (hset : CoreSet a id (some ⟨settings, .disabled reason, version⟩) a') : Off a' id' := by
  by_cases hid : id' = id
  · rw [hid]
    exact off_of_disabled hset
  · intro core hc
    rw [hset.others id' hid] at hc
    exact h core hc

end Off

/-! ## 2. The loop -/

section Loop

variable (env : Env) (reason : String) (id : JobId) (managed : ManagedJob)
  (rest : List (JobId × ManagedJob)) (state : ControllerState) (script : Script)
  (a : SchedulerActor)

/-- The state the first request of the loop finds. -/
def firstFound : SchedulerActor := run (internalTurn env) a (script.headD [])

/-- The record of a Job after it has been disabled. -/
def noteGeneration (snapshot : JobSnapshot) : ControllerState :=
  { state with
    remoteJobs :=
      state.remoteJobs.modify id fun current => { current with generation := snapshot.version } }

theorem perform_disableAll_cons :
    perform env (disableAll reason ((id, managed) :: rest) state) script a =
      match (serve env (firstFound env script a) (.disable id managed.generation reason)).1.job with
      | .error e =>
        ((.error e, state),
          (serve env (firstFound env script a) (.disable id managed.generation reason)).2)
      | .ok snapshot =>
        perform env (disableAll reason rest (noteGeneration id state snapshot)) script.tail
          (serve env (firstFound env script a) (.disable id managed.generation reason)).2 := by
  dsimp only [perform, disableAll, Calls.disable, bind, Client.bind, Client.exec, firstFound]
  generalize run (internalTurn env) a (script.headD []) = found
  cases (serve env found (.disable id managed.generation reason)).1.job <;> rfl

theorem performed_disableAll_cons :
    performed env (disableAll reason ((id, managed) :: rest) state) script a =
      (firstFound env script a, .disable id managed.generation reason) ::
        match (serve env (firstFound env script a)
          (.disable id managed.generation reason)).1.job with
        | .error _ => []
        | .ok snapshot =>
          performed env (disableAll reason rest (noteGeneration id state snapshot)) script.tail
            (serve env (firstFound env script a) (.disable id managed.generation reason)).2 := by
  dsimp only [performed, disableAll, Calls.disable, bind, Client.bind, Client.calls, firstFound]
  generalize run (internalTurn env) a (script.headD []) = found
  cases (serve env found (.disable id managed.generation reason)).1.job <;> rfl

end Loop

/-- **Exactly when the loop turns off what it should**: every request is served, or finds everything
    off already. -/
theorem disableAll_off_iff (env : Env) (reason : String) (wanted : JobId → Prop)
    (jobs : List (JobId × ManagedJob)) (state : ControllerState) (script : Script)
    (a : SchedulerActor) (h : ∀ id, wanted id → Off a id ∨ id ∈ jobs.map Prod.fst) :
    (∀ id, wanted id → Off (perform env (disableAll reason jobs state) script a).2 id) ↔
      ∀ call ∈ performed env (disableAll reason jobs state) script a,
        Served env call.1 call.2 ∨ ∀ id, wanted id → Off call.1 id := by
  induction jobs generalizing state script a with
  | nil =>
    refine ⟨fun _ call hcall => absurd hcall not_mem_nil, fun _ id hid => ?_⟩
    exact (h id hid).resolve_right not_mem_nil
  | cons entry rest ih =>
    obtain ⟨id, managed⟩ := entry
    rw [perform_disableAll_cons, performed_disableAll_cons]
    have hcalm : Calm a (firstFound env script a) := calm_interlude env _ a
    rcases serve_disable env (firstFound env script a) id managed.generation reason with
      ⟨hno, ⟨e, he⟩, hsame⟩ | ⟨core, snapshot, hserved, hat, hok, -, hset⟩
    · -- refused: the loop ends here, with the cores this request found
      rw [he]
      simp only [mem_singleton, forall_eq]
      constructor
      · intro hoff
        refine .inr fun id' hid' => (hoff id' hid').same fun k => (hsame k).symm
      · rintro (hserved | hoff)
        · exact absurd hserved hno
        · exact fun id' hid' => (hoff id' hid').same hsame
    · rw [hok]
      have hrest := ih (noteGeneration id state snapshot) script.tail _ fun id' hid' => by
        rcases h id' hid' with hoff | hmem
        · exact .inl ((hoff.calm hcalm).disabled hset)
        · rcases mem_cons.mp hmem with heq | hmem
          · rw [heq]
            exact .inl (off_of_disabled hset)
          · exact .inr hmem
      rw [hrest]
      constructor
      · intro hcalls call hcall
        rcases mem_cons.mp hcall with rfl | hcall
        · exact .inl hserved
        · exact hcalls call hcall
      · exact fun hcalls call hcall => hcalls call (mem_cons_of_mem _ hcall)

/-- The loop changes nothing in the records but generations. -/
theorem disableAll_taskKind (env : Env) (reason : String) (jobs : List (JobId × ManagedJob))
    (state : ControllerState) (script : Script) (a : SchedulerActor) (id : JobId) :
    ((perform env (disableAll reason jobs state) script a).1.2.remoteJobs.get id).map
        ManagedJob.taskKind = (state.remoteJobs.get id).map ManagedJob.taskKind := by
  induction jobs generalizing state script a with
  | nil => rfl
  | cons entry rest ih =>
    rw [perform_disableAll_cons]
    split
    · rfl
    · rw [ih]
      show ((state.remoteJobs.modify _ _).get id).map _ = _
      rw [Table.get_modify]
      split
      · rw [Option.map_map]
        rfl
      · rfl

/-! ## 3. The policy -/

/-- A remote Job of a kind the policy denies. -/
def Denied (policy : RemoteJobPolicy) (state : ControllerState) (id : JobId) : Prop :=
  ∃ managed, state.remoteJobs.get id = some managed ∧ policy.denies managed.taskKind = true

/-- No remote Job of a kind the policy denies is Enabled. -/
def Agent.Enforced (s : Agent) : Prop :=
  ∀ id, Denied s.policy s.controller id → Off s.scheduler id

/-- The same change once more; the actor and the map may move in between. -/
def Act.Repeats (change : RemoteJobPolicyChange) : Act → Prop
  | .internal _ | .rehash _ => True
  | .updatePolicy change' _ _ => change' = change
  | _ => False

theorem denied_congr {state state' : ControllerState} {id : JobId}
    (h : (state'.remoteJobs.get id).map ManagedJob.taskKind =
      (state.remoteJobs.get id).map ManagedJob.taskKind) :
    Denied policy state' id ↔ Denied policy state id := by
  have hiff : ∀ state : ControllerState, Denied policy state id ↔
      ∃ kind, (state.remoteJobs.get id).map ManagedJob.taskKind = some kind ∧
        policy.denies kind = true := by
    intro state
    simp only [Denied, Option.map_eq_some_iff]
    constructor
    · rintro ⟨managed, hm, hd⟩
      exact ⟨_, ⟨managed, hm, rfl⟩, hd⟩
    · rintro ⟨_, ⟨managed, hm, rfl⟩, hd⟩
      exact ⟨managed, hm, hd⟩
  rw [hiff, hiff, h]

theorem mem_deniedJobs {state : ControllerState} {id : JobId} (h : Denied policy state id) :
    id ∈ (deniedJobs policy state).map Prod.fst := by
  obtain ⟨managed, hm, hd⟩ := h
  refine mem_map.mpr ⟨(id, managed), mem_filter.mpr ⟨?_, hd⟩, rfl⟩
  exact Table.get_eq_some_iff.mp hm

section Policy

variable (env : Env) {change : RemoteJobPolicyChange}

/-- Once the change is stored, the operation is the loop. -/
theorem perform_updatePolicy (h : policy.apply change persist = (.ok true, policy'))
    (state : ControllerState) (script : Script) (a : SchedulerActor) :
    let loop := disableAll policyReason (deniedJobs policy' state) state
    (perform env (updatePolicy policy state change persist) script a).1.2 =
        (policy', (perform env loop script a).1.2) ∧
      (perform env (updatePolicy policy state change persist) script a).2 =
        (perform env loop script a).2 ∧
      performed env (updatePolicy policy state change persist) script a =
        performed env loop script a := by
  intro loop
  unfold perform performed updatePolicy
  rw [h]
  rw [Client.exec_bind, Client.calls_bind]
  generalize Client.exec (serve env) (internalTurn env) loop script a = r
  obtain ⟨⟨result, state'⟩, a'⟩ := r
  cases result <;> exact ⟨rfl, rfl, append_nil _⟩

/-- A change that was made is not made again. -/
theorem step_updatePolicy_again {s : Agent} (h : s.policy.changes change = false)
    (persist : Except String Unit) (script : Script) :
    s.step env (.updatePolicy change persist script) = s := by
  have happly : s.policy.apply change persist = (.ok false, s.policy) := by
    unfold RemoteJobPolicy.apply
    rw [if_pos (by simp [h])]
  have hprogram : Remote.updatePolicy s.policy s.controller change persist =
      pure (.ok 0, s.policy, s.controller) := by
    unfold updatePolicy
    rw [happly]
  dsimp only [Agent.step]
  rw [hprogram]
  rfl

theorem Agent.Enforced.repeated {s : Agent} {act : Act} (hs : s.Enforced)
    (hc : s.policy.changes change = false) (hact : act.Repeats change) :
    (s.step env act).Enforced ∧ (s.step env act).policy.changes change = false := by
  cases act with
  | internal message =>
    exact ⟨fun id hd => (hs id hd).calm (calm_turn env s.scheduler message.2), hc⟩
  | rehash entries =>
    refine ⟨fun id hd => hs id ((denied_congr ?_).mp hd), hc⟩
    exact congrArg (Option.map ManagedJob.taskKind) (get_rehash s.controller entries id)
  | updatePolicy =>
    cases hact
    rw [step_updatePolicy_again env hc]
    exact ⟨hs, hc⟩
  | command | pausePlugin | resumePlugin | clearRemoteJobs => cases hact

/-- The Agent at the end of `update_policy`. -/
theorem enforced_updatePolicy_iff (s : Agent)
    (h : s.policy.apply change persist = (.ok true, policy')) (script : Script) :
    (s.step env (.updatePolicy change persist script)).Enforced ↔
      ∀ call ∈ performed env (updatePolicy s.policy s.controller change persist) script s.scheduler,
        Served env call.1 call.2 ∨ ∀ id, Denied policy' s.controller id → Off call.1 id := by
  obtain ⟨hstate, hactor, hcalls⟩ := perform_updatePolicy env h s.controller script s.scheduler
  rw [hcalls, ← disableAll_off_iff env policyReason (Denied policy' s.controller) _ _ _ _
    fun id hd => .inr (mem_deniedJobs hd)]
  unfold Agent.Enforced Agent.step
  dsimp only
  rw [hstate, hactor]
  refine forall_congr' fun id => imp_congr (denied_congr ?_) Iff.rfl
  exact disableAll_taskKind env policyReason _ _ _ _ id

/-- **Exactly when a policy change is enforced**, at its end and however often it is repeated: each
    disable request of the loop finds its Job at the recorded generation, with a version left, or
    finds no denied Job Enabled any more. -/
theorem policy_enforced_iff (s : Agent) (change : RemoteJobPolicyChange)
    (persist : Except String Unit) (script : Script)
    (h : (s.policy.apply change persist).1 = .ok true) :
    (∀ acts : List Act, (∀ act ∈ acts, act.Repeats change) → (run (Agent.step env)
          (s.step env (.updatePolicy change persist script)) acts).Enforced) ↔
      ∀ call ∈ performed env (updatePolicy s.policy s.controller change persist) script s.scheduler,
        Served env call.1 call.2 ∨
          ∀ id, Denied (s.policy.apply change persist).2 s.controller id → Off call.1 id := by
  obtain ⟨policy', happly⟩ : ∃ policy', s.policy.apply change persist = (.ok true, policy') :=
    ⟨_, Prod.ext h rfl⟩
  rw [happly, ← enforced_updatePolicy_iff env s happly script]
  refine ⟨fun hall => hall [] fun act hact => absurd hact not_mem_nil, fun hfirst acts => ?_⟩
  have hchanges : (s.step env (.updatePolicy change persist script)).policy.changes change =
      false := by
    have hpolicy := congrArg Prod.fst
      (perform_updatePolicy env happly s.controller script s.scheduler).1
    unfold Agent.step
    dsimp only at hpolicy ⊢
    rw [hpolicy]
    exact RemoteJobPolicy.changes_of_apply happly
  -- the invariant: enforced, and the change is no longer one
  generalize s.step env (.updatePolicy change persist script) = t at hfirst hchanges ⊢
  induction acts generalizing t with
  | nil => exact fun _ => hfirst
  | cons act rest ih =>
    intro hacts
    have hnext := hfirst.repeated env hchanges (hacts act mem_cons_self)
    exact ih _ hnext.1 hnext.2 fun act' hact' => hacts act' (mem_cons_of_mem _ hact')

end Policy

/-- The operator forbids the kind of both Jobs. -/
def denyCpu (s : Agent) : Agent :=
  s.step .still (.updatePolicy (.addTask "smalux.collect.cpu.v1") (.ok ()) [])

theorem policy_enforced_polling :
    (twoPolling.policy.apply (.addTask "smalux.collect.cpu.v1") (.ok ())).1 = .ok true ∧
      ∀ acts : List Act, (∀ act ∈ acts, act.Repeats (.addTask "smalux.collect.cpu.v1")) →
        (run (Agent.step .still) (denyCpu twoPolling) acts).Enforced := by
  have hserved : ∀ call ∈ performed .still
      (updatePolicy twoPolling.policy twoPolling.controller (.addTask "smalux.collect.cpu.v1")
        (.ok ())) [] twoPolling.scheduler, Served .still call.1 call.2 := by decide +kernel
  have happly : (twoPolling.policy.apply (.addTask "smalux.collect.cpu.v1") (.ok ())).1 =
      .ok true := by decide +kernel
  exact ⟨happly, (policy_enforced_iff .still twoPolling _ (.ok ()) [] happly).mpr
    fun call hcall => .inl (hserved call hcall)⟩

/-- **One failed Job keeps the other running.** The first Job failed for good: the scheduler has
    disabled it and counted its version up, and the controller does not know. Then the operator
    forbids the kind of both Jobs. The policy is stored; the loop is refused at the first Job and
    ends; the second goes on polling. Forbidding the kind again changes nothing. -/
theorem policy_not_enforced :
    let s := run (Agent.step .still) twoPolling firstJobFails
    (s.policy.apply (.addTask "smalux.collect.cpu.v1") (.ok ())).1 = .ok true ∧
      (denyCpu s).policy.denies "smalux.collect.cpu.v1" = true ∧
      ¬ (denyCpu s).Enforced ∧ ¬ (denyCpu (denyCpu s)).Enforced := by
  intro s
  have hrunning : ∀ t : Agent, t.policy.denies "smalux.collect.cpu.v1" = true →
      (t.controller.remoteJobs.get 2).map ManagedJob.taskKind = some "smalux.collect.cpu.v1" →
      (t.scheduler.coreOf 2).map JobCore.state = some .enabled → ¬ t.Enforced := by
    intro t hd hkind hstate henforced
    obtain ⟨managed, hm, hk⟩ := Option.map_eq_some_iff.mp hkind
    obtain ⟨core, hc, hs⟩ := Option.map_eq_some_iff.mp hstate
    exact henforced 2 ⟨managed, hm, by rw [hk]; exact hd⟩ core hc hs
  refine ⟨by decide +kernel, by decide +kernel, hrunning _ ?_ ?_ ?_, hrunning _ ?_ ?_ ?_⟩ <;>
    decide +kernel

end Smalux.Remote
