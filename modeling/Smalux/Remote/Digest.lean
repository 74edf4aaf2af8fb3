/-
  Subject:   The digest an Agent reports of its catalog (reconciliation.rs, remote_jobs.rs).

  The digest depends on the net effect of the applied commands, not on how it came about: not on the
  order of the Jobs in a catalog, nor on that of the controller's map.

  * `catalogDigest_perm` -- Jobs with different ids have one canonical order;
  * `digest_agrees` -- the digest is that of any ReplaceAll with the same effect.
-/
import Mathlib.Data.List.Sort
import Smalux.Remote.NetEffect

namespace Smalux.Remote

open Lib Scheduler SchedulerActor List Proto

variable (digest : ReplaceAllJobs → List UInt8) {revision : Nat} {state : ControllerState}

/-- Over `digest_message`, which encodes and hashes. -/
def catalogDigest (catalog : ReplaceAllJobs) : List UInt8 :=
  digest { catalog with jobs := catalog.jobs.insertionSort fun a b => a.jobId ≤ b.jobId }

def catalogReconcileState (state : ControllerState) : Nat × List UInt8 :=
  if state.catalogRevision = 0 then (0, [])
  else
    (state.catalogRevision, catalogDigest digest
      ⟨state.catalogRevision, state.remoteJobs.values.map ManagedJob.definition⟩)

/-- Jobs with different ids have one order. -/
theorem catalogDigest_perm {jobs jobs' : List JobDefinition}
    (hids : (jobs.map JobDefinition.jobId).Nodup) (hperm : jobs.Perm jobs') :
    catalogDigest digest ⟨revision, jobs⟩ = catalogDigest digest ⟨revision, jobs'⟩ := by
  refine congrArg (fun jobs => digest ⟨revision, jobs⟩) ?_
  refine ((perm_insertionSort _ jobs).trans (hperm.trans
    (perm_insertionSort _ jobs').symm)).eq_of_pairwise ?_
    (pairwise_insertionSort _ jobs) (pairwise_insertionSort _ jobs')
  intro a b ha hb hab hba
  rw [mem_insertionSort] at ha hb
  exact inj_on_of_nodup_map hids ha (hperm.mem_iff.mpr hb) (Std.le_antisymm hab hba)

/-- The catalog lists the definitions of the net effect, each Job once, at its revision. -/
def Net.ListedBy (net : Net) (catalog : ReplaceAllJobs) : Prop :=
  catalog.catalogRevision = net.revision ∧ (catalog.jobs.map JobDefinition.jobId).Nodup ∧
    ∀ definition, definition ∈ catalog.jobs ↔ ∃ id, net.definitions id = some definition

/-- The definitions recorded are a list of the net effect. -/
theorem Net.Keyed.listedBy_values (h : state.net.Keyed) : state.net.ListedBy
      ⟨state.catalogRevision, state.remoteJobs.values.map ManagedJob.definition⟩ := by
  refine ⟨rfl, ?_, fun definition => ?_⟩
  · have hids : ∀ e ∈ state.remoteJobs.entries,
        parseUuid e.2.definition.jobId "job_id" = .ok e.1 := fun e he =>
      h e.1 e.2.definition (by
        show (state.remoteJobs.get e.1).map _ = _
        rw [Table.get_eq_some_iff.mpr he]
        rfl)
    show (((state.remoteJobs.entries.map Prod.snd).map _).map _).Nodup
    rw [map_map, map_map]
    refine (nodup_map_iff_inj_on (List.Nodup.of_map _ state.remoteJobs.nodup)).mpr ?_
    intro e he e' he' heq
    refine inj_on_of_nodup_map state.remoteJobs.nodup he he' ?_
    have heq : e.2.definition.jobId = e'.2.definition.jobId := heq
    exact Except.ok.inj ((hids e he).symm.trans (heq ▸ hids e' he'))
  · show definition ∈ List.map _ _ ↔ ∃ id, (state.remoteJobs.get id).map _ = some definition
    simp only [mem_map, Table.mem_values_iff, Option.map_eq_some_iff]
    constructor
    · rintro ⟨managed, ⟨id, hid⟩, rfl⟩
      exact ⟨id, managed, hid, rfl⟩
    · rintro ⟨id, managed, hid, rfl⟩
      exact ⟨managed, ⟨id, hid⟩, rfl⟩

/-- **What is reported depends on the net effect only.** -/
theorem reported_of_listedBy (h : state.net.Keyed) {catalog : ReplaceAllJobs}
    (hlist : state.net.ListedBy catalog) :
    catalogReconcileState digest state = if catalog.catalogRevision = 0 then (0, [])
      else (catalog.catalogRevision, catalogDigest digest catalog) := by
  obtain ⟨revision, jobs⟩ := catalog
  obtain ⟨hrevision, hids, hmem⟩ := hlist
  obtain ⟨-, hids', hmem'⟩ := h.listedBy_values
  obtain rfl : revision = state.catalogRevision := hrevision
  have hperm := (perm_ext_iff_of_nodup (List.Nodup.of_map _ hids')
    (List.Nodup.of_map _ hids)).mpr fun d => (hmem' d).trans (hmem d).symm
  unfold catalogReconcileState
  rw [catalogDigest_perm digest hids' hperm]

/-- An act that is to leave the catalog alone: RunNow, a command that is not applied, a pause, a
    change of policy, a step of the actor, another order of the map. -/
def Agent.Idle (env : Env) (s : Agent) : Act → Prop
  | .command factory command script =>
    (∃ run, command.action = some (.runNow run)) ∨
      (perform env (applyCommand factory s.policy s.controller command) script
        s.scheduler).1.1.status ≠ .applied
  | .clearRemoteJobs _ => False
  | _ => True

section Runs

variable (env : Env)

/-- It does leave it alone. -/
theorem Agent.Idle.net_eq {s : Agent} {act : Act} (h : s.Idle env act) :
    (s.step env act).controller.net = s.controller.net := by
  cases act with
  | internal | resumePlugin => rfl
  | rehash => exact net_rehash _ _
  | updatePolicy change persist => exact ((updatePolicy_ends change persist).exec _ _ _ _).2
  | pausePlugin plugin => exact ((pausePlugin_ends plugin).exec _ _ _ _).2
  | clearRemoteJobs => exact h.elim
  | command factory command script =>
    have hends := commanded env factory s command script
    dsimp only [Agent.Idle, Agent.step] at h ⊢
    generalize (perform env (applyCommand factory s.policy s.controller command) script
      s.scheduler).1 = r at hends h ⊢
    cases hends with
    | invalid | repeated => rfl
    | refused => exact net_noteResult _ _
    | applied hid hnew haction hcache hnet hkeyed hstatus =>
      refine (net_noteResult _ _).trans (hnet.trans ?_)
      rcases h with ⟨run, hrun⟩ | hno
      · rw [Option.some.inj (haction.symm.trans hrun)]
        rfl
      · exact absurd hstatus hno

/-- **The digest is that of any ReplaceAll with the same net effect** on the definitions, after
    whatever has happened to the Agent; revision zero stands for no catalog and is reported without
    a digest. Acts that do not change the catalog do not change what is reported. -/
theorem digest_agrees (policy : RemoteJobPolicy) (scheduler : SchedulerActor) (acts : List Act) :
    let w := run (followNet env) (.fresh policy scheduler, .empty) acts
    (∀ catalog, w.2.ListedBy catalog →
      catalogReconcileState digest w.1.controller = if catalog.catalogRevision = 0 then (0, [])
        else (catalog.catalogRevision, catalogDigest digest catalog)) ∧
    ∀ act, w.1.Idle env act →
      catalogReconcileState digest (w.1.step env act).controller =
        catalogReconcileState digest w.1.controller := by
  intro w
  have hstart : Holds (.fresh policy scheduler, Net.empty) := ⟨rfl, fun _ _ h => by cases h⟩
  obtain ⟨hnet, hkeyed⟩ : Holds w :=
    run_invariant (fun w act h _ => h.step env act) acts _ hstart (along_trivial acts _)
  rw [← hnet] at hkeyed ⊢
  refine ⟨fun catalog hlist => reported_of_listedBy digest hkeyed hlist, fun act hact => ?_⟩
  have hkeyed' : (w.1.step env act).controller.net.Keyed := by
    rw [hact.net_eq env]
    exact hkeyed
  have hlist := hkeyed.listedBy_values
  rw [reported_of_listedBy digest hkeyed hlist, reported_of_listedBy digest hkeyed'
    ((hact.net_eq env).symm ▸ hlist)]

/-- A definition that is applied is in the net effect. -/
theorem after_upsertNow {s : Agent} {net : Net} {definition : JobDefinition}
    (h : s.appliedAction ⟨Uuid.asBytes revision, some (.upsert ⟨revision, some definition⟩)⟩
      (perform env (applyCommand .lenient s.policy s.controller ⟨Uuid.asBytes revision,
        some (.upsert ⟨revision, some definition⟩)⟩) [] s.scheduler).1.1 =
      some (.upsert ⟨revision, some definition⟩)) :
    net.after env s (upsertNow revision definition) =
      net.apply (.upsert ⟨revision, some definition⟩) := by
  dsimp only [Net.after, upsertNow]
  rw [h]
  rfl

/-- The ids, for a digest. -/
def listIds (catalog : ReplaceAllJobs) : List UInt8 :=
  (catalog.jobs.map JobDefinition.jobId).flatten

/-- Two Jobs sent one by one: the digest is that of the catalog of both, in the other order. -/
theorem digest_agrees_two_polling : catalogReconcileState listIds twoPolling.controller =
      (2, catalogDigest listIds ⟨2, [pollingAs 2 1, pollingAs 1 1]⟩) := by
  refine (digest_agrees listIds .still {} (start .still { globalConcurrency := 4 })
    [upsertNow 1 (pollingAs 1 1), upsertNow 2 (pollingAs 2 1)]).1
    ⟨2, [pollingAs 2 1, pollingAs 1 1]⟩ ?_
  dsimp only [run_cons, run_nil, followNet]
  rw [after_upsertNow .still (by decide +kernel), after_upsertNow .still (by decide +kernel)]
  refine ⟨rfl, by decide +kernel, fun definition => ?_⟩
  have hids : uuidOfBytes (pollingAs 1 1).jobId = 1 ∧ uuidOfBytes (pollingAs 2 1).jobId = 2 := by
    decide +kernel
  simp only [Net.apply, hids, mem_cons, not_mem_nil, or_false]
  constructor
  · rintro (rfl | rfl)
    · exact ⟨2, rfl⟩
    · exact ⟨1, rfl⟩
  · rintro ⟨id, hid⟩
    split at hid
    · exact .inl (Option.some.inj hid).symm
    · split at hid
      · exact .inr (Option.some.inj hid).symm
      · cases hid

/-- A controller without a catalog reports no digest, though a ReplaceAll of nothing at revision zero
    would have one. -/
theorem no_catalog_no_digest : Net.empty.ListedBy ⟨0, []⟩ ∧
      catalogReconcileState (fun _ => [0]) freshAgent.controller ≠
        (0, catalogDigest (fun _ => [0]) ⟨0, []⟩) := by
  refine ⟨⟨rfl, nodup_nil, fun _ => ?_⟩, by decide⟩
  simp [Net.empty]

end Runs

end Smalux.Remote
