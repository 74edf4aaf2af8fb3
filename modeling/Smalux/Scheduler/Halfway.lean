/-
  Subject:   What a reconcile plan changes of the definitions, whether or not it comes to its end.

  A plan that fails on the way keeps what it has done. Whether that shows in some Job's settings or
  state is decided operation by operation: an update that writes what is already there shows
  nothing, a deletion and an addition always do.

  * **`applyPlan_same_iff`** -- a checked plan leaves every definition alone exactly if it is quiet.
-/
import Smalux.Scheduler.Answers

namespace Smalux.Scheduler

open Lib SchedulerActor List

/-! ## 1. Definitions -/

/-- Settings and state: what a definition determines of a Job. -/
def JobCore.definition (core : JobCore) : JobSettings × JobState := (core.settings, core.state)

def SchedulerActor.definitionOf (a : SchedulerActor) (id : JobId) :
    Option (JobSettings × JobState) := (a.coreOf id).map JobCore.definition

/-- No Job's settings or state differ, and no Job came or went. -/
def SameDefinitions (a a' : SchedulerActor) : Prop := ∀ id, a'.definitionOf id = a.definitionOf id

section Definitions

variable {a a' a'' : SchedulerActor} {id : JobId}

theorem SameCores.definitions (h : SameCores a a') : SameDefinitions a a' :=
  fun id => congrArg (Option.map JobCore.definition) (h id)

theorem SameDefinitions.trans (h : SameDefinitions a a') (h' : SameDefinitions a' a'') :
    SameDefinitions a a'' := fun id => (h' id).trans (h id)

theorem definitionOf_of_get {job : JobEntry} (h : a.jobs.get id = some job) :
    a.definitionOf id = some (job.settings, job.state) := by
  rw [definitionOf, coreOf_of_get h]
  rfl

theorem definitionOf_congr (h : a'.jobs.get id = a.jobs.get id) :
    a'.definitionOf id = a.definitionOf id := by
  unfold definitionOf coreOf
  rw [h]

/-- A change of one Job shows exactly if its definition is another one. -/
theorem CoreSet.same_iff {core : Option JobCore} (h : CoreSet a id core a') :
    SameDefinitions a a' ↔ core.map JobCore.definition = a.definitionOf id := by
  have hhere : a'.definitionOf id = core.map JobCore.definition :=
    congrArg (Option.map JobCore.definition) h.here
  constructor
  · intro hs
    rw [← hs id, hhere]
  · intro he id'
    by_cases hid : id' = id
    · rw [hid, hhere, he]
    · exact congrArg (Option.map JobCore.definition) (h.others id' hid)

/-- Two changes of different Jobs show exactly if one of them does. -/
theorem same_trans_iff (jobId : JobId) (h : ∀ id, id ≠ jobId → a'.definitionOf id = a.definitionOf id)
    (h' : a''.definitionOf jobId = a'.definitionOf jobId) :
    SameDefinitions a a'' ↔ SameDefinitions a a' ∧ SameDefinitions a' a'' := by
  refine ⟨fun hs => ?_, fun hs => hs.1.trans hs.2⟩
  have hfirst : SameDefinitions a a' := by
    intro id
    by_cases hid : id = jobId
    · rw [hid, ← h', hs jobId]
    · exact h id hid
  exact ⟨hfirst, fun id => (hs id).trans (hfirst id).symm⟩

end Definitions

/-! ## 2. One update -/

section Update

variable (env : Env) {b : SchedulerActor} {update : SchedulerReconcileUpdate} {job : JobEntry}

/-- The patch writes what is there, and the Job is not switched. -/
def harmless (t : Nat) (update : SchedulerReconcileUpdate) (job : JobEntry) : Bool :=
  decide (job.settings.patched update.patch = job.settings) &&
    !((turnsOn update job || turnsOff update job) && switchable env t update job)

theorem switchedState_eq_iff :
    switchedState update job = job.state ↔ (turnsOn update job || turnsOff update job) = false := by
  unfold switchedState
  cases hon : turnsOn update job with
  | true =>
    have hne : job.state ≠ .enabled := by
      exact of_decide_eq_true (Bool.and_eq_true _ _ ▸ hon).2
    simp [hne.symm]
  | false =>
    cases hoff : turnsOff update job with
    | true =>
      have he : job.state = .enabled := by
        exact of_decide_eq_true (Bool.and_eq_true _ _ ▸ hoff).2
      simp [he]
    | false => simp

/-- **An update shows nothing exactly if it is harmless.** -/
theorem applyUpdate_same_iff {plan : JobUpdatePlan} (hj : b.jobs.get update.jobId = some job)
    (h : b.planJobUpdate env update.jobId update.expectedVersion update.patch = .ok plan) :
    SameDefinitions b (b.applyUpdate env update).2 ↔ harmless env b.ticks update job = true := by
  obtain ⟨honly, ⟨job', hj', -, hset, hstate, -⟩, hisOk, -⟩ := applyUpdate_step hj h
  have hsame : SameDefinitions b (b.applyUpdate env update).2 ↔
      (b.applyUpdate env update).2.definitionOf update.jobId = b.definitionOf update.jobId := by
    refine ⟨fun hs => hs _, fun he id => ?_⟩
    by_cases hid : id = update.jobId
    · rw [hid, he]
    · exact definitionOf_congr (honly.other id hid)
  rw [hsame, definitionOf_of_get hj', definitionOf_of_get hj, Option.some_inj, Prod.mk.injEq, hset,
    hstate, hisOk]
  unfold harmless
  rw [Bool.and_eq_true, decide_eq_true_eq]
  refine and_congr_right fun _ => ?_
  cases switchable env b.ticks update job with
  | true =>
    rw [if_pos rfl, switchedState_eq_iff]
    simp
  | false => simp

end Update

/-! ## 3. Whole plans -/

section Plan

variable (env : Env) (a : SchedulerActor)

/-- The updates that are carried out, the first one reading the clock from `t` on, show nothing. -/
def quietUpdates : Nat → List SchedulerReconcileUpdate → Bool
  | _, [] => true
  | t, update :: rest =>
    match a.jobs.get update.jobId with
    | none => true
    | some job =>
      if (planAt env a t update).isOk then
        harmless env t update job &&
          (if switchable env t update job then quietUpdates (t + readings update job) rest
          else true)
      else true

/-- There is nothing to add, or already the first addition fails. -/
def nothingAdded (t : Nat) : List SchedulerReconcileAddition → Bool
  | [] => true
  | addition :: _ => !(firstRunAt env.croner addition.trigger (env.clock t)).isOk

/-- What is carried out of the plan shows nothing. -/
def planQuiet (plan : SchedulerReconcilePlan) : Bool :=
  quietUpdates env a (applyFrom a plan) plan.updates &&
    (!updatesPossible env a (applyFrom a plan) plan.updates ||
      (plan.deletions.isEmpty &&
        nothingAdded env (updatesEnd a (applyFrom a plan) plan.updates) plan.additions))

variable {env a}

theorem forEach_applyUpdate_same_iff (updates : List SchedulerReconcileUpdate) {b : SchedulerActor}
    (hnodup : (updates.map (·.jobId)).Nodup) (hc : b.config = a.config)
    (hsame : ∀ update ∈ updates, b.jobs.get update.jobId = a.jobs.get update.jobId)
    (hthere : ∀ update ∈ updates, a.jobs.get update.jobId ≠ none) :
    SameDefinitions b (forEach (applyUpdate env) updates b).2 ↔
      quietUpdates env a b.ticks updates = true := by
  induction updates generalizing b with
  | nil => exact ⟨fun _ => rfl, fun _ _ => rfl⟩
  | cons update rest ih =>
    rw [map_cons, nodup_cons] at hnodup
    obtain ⟨job, hj⟩ := Option.ne_none_iff_exists'.mp (hthere update mem_cons_self)
    have hjb : b.jobs.get update.jobId = some job := (hsame update mem_cons_self).trans hj
    have hplan := planJobUpdate_atTick env hc (hsame update mem_cons_self)
    rw [quietUpdates, hj]
    dsimp only
    cases hp : planAt env a b.ticks update with
    | error =>
      rw [hp] at hplan
      have happly := applyUpdate_error hplan
      rw [forEach_cons_error (by rw [happly]; rfl), happly]
      exact ⟨fun _ => rfl, fun _ _ => rfl⟩
    | ok =>
      rw [hp] at hplan
      have hstep := applyUpdate_step hjb hplan
      rw [if_pos (by rfl), Bool.and_eq_true, ← applyUpdate_same_iff env hjb hplan,
        ← hstep.isOk]
      cases hok : (b.applyUpdate env update).1.isOk with
      | false =>
        rw [forEach_cons_error hok]
        simp
      | true =>
        have hne : ∀ other ∈ rest, other.jobId ≠ update.jobId := fun other ho he =>
          hnodup.1 (he ▸ mem_map_of_mem ho)
        have hsame' : ∀ other ∈ rest, (b.applyUpdate env update).2.jobs.get other.jobId =
            a.jobs.get other.jobId := fun other ho =>
          (hstep.only.other _ (hne other ho)).trans (hsame other (mem_cons_of_mem _ ho))
        have hthere' : ∀ other ∈ rest, a.jobs.get other.jobId ≠ none := fun other ho =>
          hthere other (mem_cons_of_mem _ ho)
        have hconfig := hstep.only.config.trans hc
        have hphase : UpdatesPhase env a (b.applyUpdate env update).2 rest _ :=
          forEach_applyUpdate rest hnodup.2 hconfig hsame' hthere'
        rw [forEach_cons_ok hok, if_pos rfl, ← hstep.ticks hok,
          ← ih hnodup.2 hconfig hsame' hthere']
        -- the rest of the updates leaves this Job alone
        exact same_trans_iff update.jobId
          (fun id hid => definitionOf_congr (hstep.only.other id hid))
          (definitionOf_congr (hphase.other _ hnodup.1))

/-- A Job that came or went shows. -/
theorem not_same_of_get {a' : SchedulerActor} {id : JobId}
    (h : ¬ (a'.jobs.get id = none ↔ a.jobs.get id = none)) : ¬ SameDefinitions a a' := by
  intro hs
  have hnone : ∀ b : SchedulerActor, b.definitionOf id = none ↔ b.jobs.get id = none := by
    intro b
    simp [definitionOf, coreOf]
  exact h (by rw [← hnone, ← hnone, hs id])

variable {plan : SchedulerReconcilePlan}

/-- What the additions show. -/
theorem additions_same_iff {b : SchedulerActor} {additions : List SchedulerReconcileAddition}
    {r : Except SchedulerError Unit × SchedulerActor} (h : AdditionsPhase env b additions r)
    (hfree : ∀ addition ∈ additions, a.jobs.get addition.jobId = none) :
    SameDefinitions a r.2 ↔ SameDefinitions a b ∧ nothingAdded env b.ticks additions = true := by
  cases hxs : additions with
  | nil =>
    have hall : ∀ id, r.2.definitionOf id = b.definitionOf id := fun id =>
      definitionOf_congr (h.other id (by rw [hxs]; exact not_mem_nil))
    refine ⟨fun hs => ⟨fun id => (hall id).symm.trans (hs id), rfl⟩, fun hs id => ?_⟩
    exact (hall id).trans (hs.1 id)
  | cons first rest =>
    have hfirst := h.first first rest hxs
    split at hfirst
    · rename_i hworks
      have hno : ¬ SameDefinitions a r.2 := not_same_of_get fun hiff =>
        hfirst (hiff.mpr (hfree first (by rw [hxs]; exact mem_cons_self)))
      simp [nothingAdded, hworks, hno]
    · rename_i hfails
      have hall : SameDefinitions b r.2 := fun id => definitionOf_congr (by rw [hfirst.jobs])
      simp only [nothingAdded, hfails, Bool.not_false, and_true]
      exact ⟨fun hs id => (hall id).symm.trans (hs id), fun hs => hs.trans hall⟩

/-- **What is carried out of a checked plan shows nothing exactly if the plan is quiet.** -/
theorem applyPlan_same_iff (hc : PlanChecked env a plan) :
    SameDefinitions a ((a.atTick (applyFrom a plan)).applyPlan env plan).2 ↔
      planQuiet env a plan = true := by
  have hu := updatesPhase_of hc
  have hquiet : SameDefinitions a _ ↔ quietUpdates env a (applyFrom a plan) plan.updates = true :=
    forEach_applyUpdate_same_iff (b := a.atTick (applyFrom a plan)) plan.updates hc.updateIds rfl
      (fun _ _ => rfl) (updatesPlanned_there hc.planned)
  have hisOk : _ = updatesPossible env a (applyFrom a plan) plan.updates := hu.isOk
  unfold applyPlan planQuiet
  rw [Bool.and_eq_true, ← hquiet, ← hisOk]
  split
  · rename_i e a₁ hr
    rw [hr]
    simp [Except.isOk, Except.toBool]
  · rename_i u a₁ hr
    rw [hr] at hu ⊢
    have hd := deletionsPhase_of hc hu
    split
    · rename_i hr'
      have hok := hd.isOk
      rw [hr'] at hok
      cases hok
    · rename_i v a₂ hr'
      have hend : a₁.ticks = updatesEnd a (applyFrom a plan) plan.updates := (hu.done rfl).1
      have hadd := additionsPhase_of hc hu hd
      rw [hr'] at hadd hd
      rw [additions_same_iff hadd hc.additions, ← hend]
      cases hds : plan.deletions with
      | nil =>
        rw [hds] at hr'
        cases hr'
        simp [Except.isOk, Except.toBool]
      | cons deletion =>
        -- a Job that was there is gone
        have hmem : deletion ∈ plan.deletions := by rw [hds]; exact mem_cons_self
        obtain ⟨job, hj, -⟩ := hc.deletions deletion hmem
        have hgone : a₂.jobs.get deletion.1 = none := hd.gone deletion hmem
        have hno : ¬ SameDefinitions a a₂ := not_same_of_get fun hiff => by
          have := hiff.mp hgone
          rw [hj] at this
          cases this
        simp [Except.isOk, Except.toBool, hno]

end Plan

end Smalux.Scheduler
