/-
  Subject:   What a catalog asks of the scheduler.

  ReplaceAll compiles every definition, plans the difference to what is recorded, and records the
  catalog when the plan has been carried out.
-/
import Smalux.Remote.Controller
import Smalux.Scheduler.Answers

namespace Smalux.Remote

open Lib Scheduler SchedulerActor List Option

variable {current : ManagedJob} {job : CompiledJob}

variable {plan : SchedulerReconcilePlan} {jobs : List CompiledJob} {applied : List JobSnapshot}
  {remoteJobs : Table JobId ManagedJob}

/-! ## 1. Definitions -/

section Compile

variable {factory : TaskFactory} {policy : RemoteJobPolicy}

theorem parseUuid_ok {bytes : List UInt8} {field : String} {id : Uuid}
    (h : parseUuid bytes field = .ok id) : bytes.length = 16 ∧ uuidOfBytes bytes = id := by
  unfold parseUuid at h
  split at h
  · rename_i hlength
    exact ⟨hlength, Except.ok.inj h⟩
  · cases h

theorem expectManaged_ok {state : ControllerState} {jobId : List UInt8} {revision : Nat}
    {id : JobId} (h : expectManaged state jobId revision = .ok (id, current)) :
    uuidOfBytes jobId = id ∧ state.remoteJobs.get id = some current := by
  obtain ⟨id', hid, h⟩ := bind_eq_ok h
  have hid := parseUuid_ok (mapError_eq_ok hid)
  split at h
  · cases h
  · rename_i hget
    split at h
    · cases h
    · cases h
      exact ⟨hid.2, hget⟩

theorem compileJob_ok {definition : Proto.JobDefinition} (h : compileJob factory definition = .ok job) :
    compileOptions definition.options = .ok job.options ∧ job.definition = definition ∧
      job.enabled = definition.enabled ∧ parseUuid definition.jobId "job_id" = .ok job.id ∧
      job.revision = definition.revision := by
  obtain ⟨id, hid, h⟩ := bind_eq_ok h
  split at h
  · cases h
  obtain ⟨_, -, h⟩ := bind_eq_ok h
  obtain ⟨_, -, h⟩ := bind_eq_ok h
  obtain ⟨options, hoptions, h⟩ := bind_eq_ok h
  obtain ⟨_, -, h⟩ := bind_eq_ok h
  obtain ⟨_, -, h⟩ := bind_eq_ok h
  obtain ⟨_, -, h⟩ := bind_eq_ok h
  cases h
  exact ⟨hoptions, rfl, rfl, hid, rfl⟩

theorem compileChecked_ok {definition : Proto.JobDefinition}
    (h : compileChecked factory policy definition = .ok job) :
    job.definition = definition ∧ job.enabled = definition.enabled ∧
      parseUuid definition.jobId "job_id" = .ok job.id ∧ job.revision = definition.revision := by
  obtain ⟨-, -, h⟩ := bind_eq_ok h
  exact (compileJob_ok (mapError_eq_ok h)).2

/-- No Job is named twice, and none of those seen before. -/
theorem compileAll_ok {definitions : List Proto.JobDefinition} {ids : List JobId}
    (h : compileAll factory policy ids definitions = .ok jobs) :
    (jobs.map CompiledJob.id).Nodup ∧ (∀ job ∈ jobs, job.id ∉ ids) ∧
      jobs.map CompiledJob.definition = definitions ∧
      ∀ job ∈ jobs, job.enabled = job.definition.enabled ∧
        parseUuid job.definition.jobId "job_id" = .ok job.id ∧
        job.revision = job.definition.revision := by
  induction definitions generalizing ids jobs with
  | nil =>
    cases h
    simp
  | cons definition rest ih =>
    obtain ⟨id, hid, h⟩ := bind_eq_ok h
    obtain ⟨hnew, h⟩ := ite_eq_ok h
    obtain ⟨job, hjob, h⟩ := bind_eq_ok h
    obtain ⟨jobs', hrest, h⟩ := bind_eq_ok h
    cases h
    obtain ⟨hnodup, hfresh, hdefs, hen⟩ := ih hrest
    obtain ⟨hdef, henabled, hid', hrevision⟩ := compileChecked_ok hjob
    have heq : job.id = id := Except.ok.inj (hid'.symm.trans (mapError_eq_ok hid))
    refine ⟨?_, ?_, ?_, ?_⟩
    · simp only [map_cons, nodup_cons]
      refine ⟨fun hmem => ?_, hnodup⟩
      obtain ⟨job', hjob', hsame⟩ := mem_map.mp hmem
      exact hfresh job' hjob' (by rw [hsame, heq]; exact mem_cons_self)
    · intro job' hjob'
      rcases mem_cons.mp hjob' with rfl | hjob'
      · rw [heq]; exact hnew
      · exact fun hmem => hfresh job' hjob' (mem_cons_of_mem _ hmem)
    · rw [map_cons, hdef, hdefs]
    · intro job' hjob'
      rcases mem_cons.mp hjob' with rfl | hjob'
      · rw [henabled, hrevision, hdef]
        exact ⟨rfl, hid', rfl⟩
      · exact hen job' hjob'

end Compile

/-! ## 2. The plan and the record -/

section Plan

variable (state : ControllerState) {remoteJobs' : Table JobId ManagedJob}

/-- The update that gives a recorded Job its new definition, at the generation recorded for it. -/
def UpdateOf (job : CompiledJob) (update : SchedulerReconcileUpdate) : Prop :=
  ∃ current, state.remoteJobs.get job.id = some current ∧ job.definition ≠ current.definition ∧
    update = ⟨job.id, current.generation, fullPatch job.trigger job.task job.options, job.enabled⟩

/-- The addition of a Job that is not recorded. -/
def AdditionOf (job : CompiledJob) (addition : SchedulerReconcileAddition) : Prop :=
  state.remoteJobs.get job.id = none ∧
    addition = ⟨job.id, job.enabled, job.trigger, job.task, job.options⟩

/-- What becomes of the first definition of a catalog that can be planned. -/
theorem planJobs_cons {rest : List CompiledJob} (h : planJobs state (job :: rest) = .ok plan) :
    ∃ plan', planJobs state rest = .ok plan' ∧ ((∃ update, UpdateOf state job update ∧
          plan = { plan' with updates := update :: plan'.updates }) ∨
        ((∃ current, state.remoteJobs.get job.id = some current ∧
          current.definition = job.definition) ∧ plan = plan') ∨
        ∃ addition, AdditionOf state job addition ∧
          plan = { plan' with additions := addition :: plan'.additions }) := by
  unfold planJobs at h
  cases hget : state.remoteJobs.get job.id with
  | none =>
    rw [hget] at h
    obtain ⟨plan', hrest, h⟩ := bind_eq_ok h
    cases h
    exact ⟨plan', hrest, .inr (.inr ⟨_, ⟨hget, rfl⟩, rfl⟩)⟩
  | some current =>
    rw [hget] at h
    dsimp only at h
    obtain ⟨-, h⟩ := ite_eq_ok h
    obtain ⟨-, h⟩ := ite_eq_ok h
    split at h
    · rename_i hne
      obtain ⟨plan', hrest, h⟩ := bind_eq_ok h
      cases h
      exact ⟨plan', hrest, .inl ⟨_, ⟨current, hget, hne, rfl⟩, rfl⟩⟩
    · rename_i hsame
      exact ⟨plan, h, .inr (.inl ⟨⟨current, rfl, (not_not.mp hsame).symm⟩, rfl⟩)⟩

/-- Every definition is the one applied last, or the plan asks for it. -/
theorem planJobs_covers (h : planJobs state jobs = .ok plan) :
    ∀ job ∈ jobs, (∃ current, state.remoteJobs.get job.id = some current ∧
      current.definition = job.definition) ∨ job.id ∈ plan.targetIds := by
  induction jobs generalizing plan with
  | nil => exact fun job hjob => absurd hjob not_mem_nil
  | cons first rest ih =>
    intro job hjob
    obtain ⟨plan', hrest, hfirst⟩ := planJobs_cons state h
    have hgrow := ih hrest job
    rcases hfirst with ⟨update, ⟨current, -, -, rfl⟩, rfl⟩ | ⟨hsame, rfl⟩ |
      ⟨addition, ⟨-, rfl⟩, rfl⟩ <;> rcases mem_cons.mp hjob with rfl | hjob
    · exact .inr (mem_append_left _ mem_cons_self)
    · exact (hgrow hjob).imp_right fun hin => mem_cons_of_mem _ hin
    · exact .inl hsame
    · exact hgrow hjob
    · exact .inr (mem_append_right _ mem_cons_self)
    · refine (hgrow hjob).imp_right fun hin => ?_
      rcases mem_append.mp hin with hin | hin
      · exact mem_append_left _ hin
      · exact mem_append_right _ (mem_cons_of_mem _ hin)

/-- What the plan asks for: new definitions of recorded Jobs, and new Jobs. -/
theorem planJobs_asks (h : planJobs state jobs = .ok plan) :
    (∀ update ∈ plan.updates, ∃ job ∈ jobs, UpdateOf state job update) ∧
      ∀ addition ∈ plan.additions, ∃ job ∈ jobs, AdditionOf state job addition := by
  induction jobs generalizing plan with
  | nil =>
    cases h
    exact ⟨fun _ hu => absurd hu not_mem_nil, fun _ hx => absurd hx not_mem_nil⟩
  | cons first rest ih =>
    obtain ⟨plan', hrest, hfirst⟩ := planJobs_cons state h
    obtain ⟨hu, hx⟩ := ih hrest
    replace hu : ∀ update ∈ plan'.updates, ∃ job ∈ first :: rest, UpdateOf state job update :=
      fun update hmem => (hu update hmem).imp fun _ hjob => ⟨mem_cons_of_mem _ hjob.1, hjob.2⟩
    replace hx : ∀ addition ∈ plan'.additions, ∃ job ∈ first :: rest,
        AdditionOf state job addition :=
      fun addition hmem => (hx addition hmem).imp fun _ hjob =>
        ⟨mem_cons_of_mem _ hjob.1, hjob.2⟩
    rcases hfirst with ⟨update, hasks, rfl⟩ | ⟨-, rfl⟩ | ⟨addition, hasks, rfl⟩
    · refine ⟨fun update' hmem => ?_, hx⟩
      rcases mem_cons.mp hmem with rfl | hmem
      · exact ⟨first, mem_cons_self, hasks⟩
      · exact hu update' hmem
    · exact ⟨hu, hx⟩
    · refine ⟨hu, fun addition' hmem => ?_⟩
      rcases mem_cons.mp hmem with rfl | hmem
      · exact ⟨first, mem_cons_self, hasks⟩
      · exact hx addition' hmem

/-- The whole plan of a catalog. -/
def wholePlan (jobs : List CompiledJob) (plan : SchedulerReconcilePlan) : SchedulerReconcilePlan :=
  { plan with deletions := planDeletions state (jobs.map CompiledJob.id) }

/-- The record is written if a generation is known for every definition. -/
theorem recordApplied_ok (h : ∀ job ∈ jobs, (appliedGeneration state applied job).isSome = true)
    (remoteJobs : Table JobId ManagedJob) :
    ∃ remoteJobs', recordApplied state applied jobs remoteJobs = .ok remoteJobs' := by
  induction jobs generalizing remoteJobs with
  | nil => exact ⟨remoteJobs, rfl⟩
  | cons job rest ih =>
    obtain ⟨generation, hg⟩ := isSome_iff_exists.mp (h job mem_cons_self)
    unfold recordApplied
    rw [hg]
    exact ih (fun job' hjob' => h job' (mem_cons_of_mem _ hjob')) _

/-- It is if the answer has every Job the plan asks for. -/
theorem recordApplied_planned (hplan : planJobs state jobs = .ok plan)
    (h : ∀ id ∈ plan.targetIds, (versionIn applied id).isSome = true) :
    ∃ remoteJobs, recordApplied state applied jobs Table.empty = .ok remoteJobs := by
  refine recordApplied_ok state (fun job hjob => ?_) _
  unfold appliedGeneration
  rw [isSome_or]
  rcases planJobs_covers state hplan job hjob with ⟨current, hget, hsame⟩ | hin
  · rw [hget, filter_some, if_pos (decide_eq_true hsame)]
    rfl
  · rw [h job.id hin, Bool.or_true]

/-- Nothing is recorded for an id the catalog does not have. -/
theorem recordApplied_other (h : recordApplied state applied jobs remoteJobs = .ok remoteJobs')
    {id : JobId} (hid : id ∉ jobs.map CompiledJob.id) : remoteJobs'.get id = remoteJobs.get id := by
  induction jobs generalizing remoteJobs with
  | nil =>
    cases h
    rfl
  | cons job rest ih =>
    rw [map_cons, mem_cons, not_or] at hid
    unfold recordApplied at h
    split at h
    · rw [ih h hid.2, Table.get_insert, if_neg hid.1]
    · cases h

/-- Each definition is recorded with the generation known for it. -/
theorem recordApplied_get (h : recordApplied state applied jobs remoteJobs = .ok remoteJobs')
    (hnodup : (jobs.map CompiledJob.id).Nodup) (hjob : job ∈ jobs) :
    ∃ generation, appliedGeneration state applied job = some generation ∧
      remoteJobs'.get job.id = some (job.managed generation) := by
  induction jobs generalizing remoteJobs with
  | nil => cases hjob
  | cons first rest ih =>
    rw [map_cons, nodup_cons] at hnodup
    unfold recordApplied at h
    split at h
    · rename_i generation hg
      rcases mem_cons.mp hjob with rfl | hjob
      · refine ⟨generation, hg, ?_⟩
        rw [recordApplied_other state h hnodup.1, Table.get_insert, if_pos rfl]
      · exact ih h hnodup.2 hjob
    · cases h

end Plan

/-! ## 3. A catalog that is carried out -/

section CarriedOut

variable {state : ControllerState}

/-- A definition that is the one applied last is not in the plan. -/
theorem unchanged_not_planned (hnodup : (jobs.map CompiledJob.id).Nodup)
    (hplan : planJobs state jobs = .ok plan) (hjob : job ∈ jobs)
    (hget : state.remoteJobs.get job.id = some current)
    (hsame : current.definition = job.definition) : job.id ∉ (wholePlan state jobs plan).ids := by
  obtain ⟨hupdates, hadditions⟩ := planJobs_asks state hplan
  intro hid
  rcases mem_append.mp hid with hid | hid
  · rcases mem_append.mp hid with hid | hid
    · obtain ⟨update, hu, hid⟩ := mem_map.mp hid
      obtain ⟨job', hjob', current', hget', hne, rfl⟩ := hupdates update hu
      have heq : job' = job := inj_on_of_nodup_map hnodup hjob' hjob hid
      rw [heq, hget] at hget'
      rw [heq, ← Option.some.inj hget'] at hne
      exact hne hsame.symm
    · obtain ⟨deletion, hd, hid⟩ := mem_map.mp hid
      obtain ⟨entry, hentry, rfl⟩ := mem_map.mp hd
      have hgone := of_decide_eq_true (mem_filter.mp hentry).2
      exact hgone (hid ▸ mem_map_of_mem hjob)
  · obtain ⟨addition, hx, hid⟩ := mem_map.mp hid
    obtain ⟨job', -, hnone, rfl⟩ := hadditions addition hx
    have hid : job'.id = job.id := hid
    rw [hid, hget] at hnone
    cases hnone

/-- A Job the plan asks for is on or off as its definition says. -/
theorem planned_switched {found b : SchedulerActor} (hnodup : (jobs.map CompiledJob.id).Nodup)
    (hplan : planJobs state jobs = .ok plan)
    (happlied : PlanApplied found (wholePlan state jobs plan) b) (hjob : job ∈ jobs)
    (hin : job.id ∈ plan.targetIds) :
    ∃ entry, b.jobs.get job.id = some entry ∧ entry.Switched job.enabled := by
  obtain ⟨hupdates, hadditions⟩ := planJobs_asks state hplan
  rcases mem_append.mp hin with hin | hin
  · obtain ⟨update, hu, hid⟩ := mem_map.mp hin
    obtain ⟨job', hjob', current, -, -, heq⟩ := hupdates update hu
    obtain ⟨-, entry, -, hentry, -, -, hswitched⟩ := happlied.updates update hu
    rw [heq] at hid hentry hswitched
    obtain rfl := inj_on_of_nodup_map hnodup hjob' hjob hid
    exact ⟨entry, hentry, hswitched⟩
  · obtain ⟨addition, hx, hid⟩ := mem_map.mp hin
    obtain ⟨job', hjob', -, heq⟩ := hadditions addition hx
    obtain ⟨entry, hentry, -, -, hswitched⟩ := happlied.additions addition hx
    rw [heq] at hid hentry hswitched
    obtain rfl := inj_on_of_nodup_map hnodup hjob' hjob hid
    exact ⟨entry, hentry, hswitched⟩

/-- The catalog has been planned against the records, carried out on `found`, and recorded. -/
def CarriedOut (state : ControllerState) (jobs : List CompiledJob) (found b : SchedulerActor)
    (applied : List JobSnapshot) (remoteJobs : Table JobId ManagedJob) : Prop :=
  ∃ plan, (jobs.map CompiledJob.id).Nodup ∧ planJobs state jobs = .ok plan ∧
    PlanApplied found (wholePlan state jobs plan) b ∧
    (∀ id ∈ plan.targetIds, versionIn applied id = (b.coreOf id).map JobCore.version) ∧
    recordApplied state applied jobs Table.empty = .ok remoteJobs

namespace CarriedOut

variable {found b : SchedulerActor} {id : JobId}

section

variable (h : CarriedOut state jobs found b applied remoteJobs)
include h

theorem recorded_only {managed : ManagedJob} (hid : remoteJobs.get id = some managed) :
    ∃ job ∈ jobs, job.id = id := by
  obtain ⟨plan, -, -, -, -, hrecord⟩ := h
  by_contra hno
  rw [recordApplied_other state hrecord fun hmem => hno (mem_map.mp hmem)] at hid
  cases hid

/-- **Each definition** is the one applied last, and its Job has been left alone; or its Job is on
    or off as it says. -/
theorem cases (hjob : job ∈ jobs) : (∃ current, state.remoteJobs.get job.id = some current ∧
        current.definition = job.definition ∧ b.coreOf job.id = found.coreOf job.id ∧
        remoteJobs.get job.id = some (job.managed current.generation)) ∨
      (∀ current, state.remoteJobs.get job.id = some current →
          current.definition ≠ job.definition) ∧
        ∃ core, b.coreOf job.id = some core ∧ (job.enabled = true ↔ core.state = .enabled) ∧
          remoteJobs.get job.id = some (job.managed core.version) := by
  obtain ⟨plan, hnodup, hplan, happlied, hversions, hrecord⟩ := h
  obtain ⟨generation, hg, hm⟩ := recordApplied_get state hrecord hnodup hjob
  unfold appliedGeneration at hg
  cases hcurrent : (state.remoteJobs.get job.id).filter fun current =>
      decide (current.definition = job.definition) with
  | some current =>
    rw [hcurrent] at hg
    obtain ⟨hget, hsame⟩ := filter_eq_some_iff.mp hcurrent
    have hsame : current.definition = job.definition := of_decide_eq_true hsame
    have hleft := happlied.others job.id (unchanged_not_planned hnodup hplan hjob hget hsame)
    refine .inl ⟨current, hget, hsame, by rw [coreOf, hleft]; rfl, ?_⟩
    rw [hm, Option.some.inj hg]
  | none =>
    rw [hcurrent] at hg
    have hchanged : ∀ current, state.remoteJobs.get job.id = some current →
        current.definition ≠ job.definition := by
      intro current hget hsame
      rw [hget, filter_some, if_pos (decide_eq_true hsame)] at hcurrent
      cases hcurrent
    have hin : job.id ∈ plan.targetIds := by
      refine (planJobs_covers state hplan job hjob).resolve_left ?_
      rintro ⟨current, hget, hsame⟩
      exact hchanged current hget hsame
    obtain ⟨entry, hentry, hswitched⟩ : ∃ entry, b.jobs.get job.id = some entry ∧
        entry.Switched job.enabled := planned_switched hnodup hplan happlied hjob hin
    refine .inr ⟨hchanged, entry.core, coreOf_of_get hentry, hswitched.1, ?_⟩
    rw [hversions job.id hin, coreOf_of_get hentry] at hg
    rw [hm, ← Option.some.inj hg]

/-- A Job that is there and not recorded is somebody else's, and was there before. -/
theorem foreign (hthere : b.coreOf id ≠ none) (hnone : remoteJobs.get id = none) :
    found.coreOf id ≠ none ∧ state.remoteJobs.get id = none := by
  obtain ⟨plan, hnodup, hplan, happlied, -, hrecord⟩ := h
  obtain ⟨hupdates, hadditions⟩ := planJobs_asks state hplan
  have hnot : ∀ job ∈ jobs, job.id ≠ id := by
    rintro job hjob rfl
    obtain ⟨generation, -, hm⟩ := recordApplied_get state hrecord hnodup hjob
    rw [hm] at hnone
    cases hnone
  have hkept : ∀ deletion ∈ planDeletions state (jobs.map CompiledJob.id), deletion.1 ≠ id := by
    rintro deletion hd rfl
    exact hthere (congrArg (Option.map JobEntry.core) (happlied.deletions deletion hd))
  have hleft : b.jobs.get id = found.jobs.get id := by
    refine happlied.others id fun hid => ?_
    rcases mem_append.mp hid with hid | hid
    · rcases mem_append.mp hid with hid | hid
      · obtain ⟨update, hu, rfl⟩ := mem_map.mp hid
        obtain ⟨job, hjob, _, -, -, rfl⟩ := hupdates update hu
        exact hnot job hjob rfl
      · obtain ⟨deletion, hd, heq⟩ := mem_map.mp hid
        exact hkept deletion hd heq
    · obtain ⟨addition, hx, rfl⟩ := mem_map.mp hid
      obtain ⟨job, hjob, -, rfl⟩ := hadditions addition hx
      exact hnot job hjob rfl
  refine ⟨fun hgone => hthere ?_, ?_⟩
  · rw [coreOf, hleft]
    exact hgone
  · -- a recorded Job that the catalog lacks would have been deleted
    cases hget : state.remoteJobs.get id with
    | none => rfl
    | some managed =>
      refine absurd rfl (hkept (id, managed.generation) (mem_map.mpr ⟨(id, managed), ?_, rfl⟩))
      refine mem_filter.mpr ⟨Table.get_eq_some_iff.mp hget, decide_eq_true fun hmem => ?_⟩
      obtain ⟨job, hjob, heq⟩ := mem_map.mp hmem
      exact hnot job hjob heq

end

end CarriedOut

end CarriedOut

end Smalux.Remote
