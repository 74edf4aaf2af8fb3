/-
  Subject:   The catalogs the Server has accepted, delivered to the Agent's controller.

  The Server compares a new catalog with everything it has ever recorded for the Agent; the Agent
  compares it with the subset of an earlier one that it happens to hold. The relation between the two
  (`Tracks`): whatever the controller holds comes from a catalog of the history, and from none above
  the revision it has last applied. Of two catalogs of the history the later one never has an older
  revision of a Job, nor the same revision with another content (`NeverOlder`).

  * `published` -- the catalogs that a sequence of replacements has led to;
  * `replaceAll_ends` -- what `replace_all` answers when its checks of revisions pass;
  * **`accepted_catalogs_acceptable`** -- no delivery in order is rejected for a revision.
-/
import Smalux.Remote.Rules
import Smalux.Remote.Catalog
import Smalux.Server.CatalogHistory

namespace Smalux.Server

open Lib Scheduler Remote SchedulerActor List Proto ControlError

variable {factory : TaskFactory} {policy : RemoteJobPolicy} {state : ControllerState}
  {applied : List JobSnapshot}

/-! ## 1. The catalogs of a history -/

/-- The tables and the catalogs of one Agent so far, the last one first. -/
structure Publication where
  tables : CatalogTables
  catalogs : List ReplaceAllJobs

/-- One call; a success for the Agent is a new catalog of it. -/
def Publication.step (env : WebEnv) (agentId : String) (p : Publication) (call : CatalogCall) :
    Publication :=
  match call.serve env p.tables with
  | (.ok (some record), tables) =>
    ⟨tables, if call.agentId = agentId then record.catalog :: p.catalogs else p.catalogs⟩
  | (_, tables) => ⟨tables, p.catalogs⟩

/-- The catalogs of the Agent that a sequence of replacements has led to. -/
def published (env : WebEnv) (agentId : String) (calls : List CatalogCall) :
    List ReplaceAllJobs :=
  (run (Publication.step env agentId) ⟨.empty, []⟩ calls).catalogs

/-- Of two catalogs the one with the higher revision has no older revision of a Job, and no other
    content under the same. -/
def NeverOlder (catalogs : List ReplaceAllJobs) : Prop :=
  ∀ c ∈ catalogs, ∀ c' ∈ catalogs, c.catalogRevision ≤ c'.catalogRevision →
    ∀ x ∈ c.jobs, ∀ y ∈ c'.jobs, x.jobId = y.jobId →
      x.revision ≤ y.revision ∧ (x.revision = y.revision → x = y)

/-- What a history keeps. -/
structure Publication.Inv (agentId : String) (p : Publication) : Prop where
  backed : ∀ c ∈ p.catalogs, ∀ x ∈ c.jobs, ∃ kind,
    p.tables.versions.get (agentId, x.jobId, x.revision) = some ⟨kind, x⟩
  bounded : ∀ c ∈ p.catalogs, 0 < c.catalogRevision ∧
    c.catalogRevision ≤ (p.tables.catalogs.get agentId).getD 0
  neverOlder : NeverOlder p.catalogs

namespace Publication

variable {env : WebEnv} {agentId : String} {p : Publication} {d' : CatalogTables}
  {record : AgentJobCatalogRecord} {jobs : List JobDefinition}

/-- A replacement of another Agent's catalog. -/
theorem Inv.other (h : p.Inv agentId) {a : String}
    (hreplaced : Replaced a jobs record p.tables d') (ha : a ≠ agentId) :
    Inv agentId ⟨d', p.catalogs⟩ where
  backed := by
    intro c hc x hx
    obtain ⟨kind, hkind⟩ := h.backed c hc x hx
    exact ⟨kind, hreplaced.kept _ _ hkind⟩
  bounded := by
    intro c hc
    rw [hreplaced.catalogs, if_neg ha.symm]
    exact h.bounded c hc
  neverOlder := h.neverOlder

/-- A replacement of the Agent's own. -/
theorem Inv.own (h : p.Inv agentId) (hreplaced : Replaced agentId jobs record p.tables d') :
    Inv agentId ⟨d', record.catalog :: p.catalogs⟩ := by
  have hmem : ∀ {x}, x ∈ record.catalog.jobs → x ∈ jobs := hreplaced.listed.mem_iff.mp
  have hbelow : ∀ c ∈ p.catalogs, c.catalogRevision < record.catalog.catalogRevision := by
    intro c hc
    rw [hreplaced.revision]
    exact Nat.lt_succ_of_le (h.bounded c hc).2
  refine ⟨fun c hc x hx => ?_, fun c hc => ?_, fun c hc c' hc' hle x hx y hy hid => ?_⟩
  · rcases mem_cons.mp hc with rfl | hc
    · obtain ⟨kind, _, hrecorded⟩ := hreplaced.recorded x (hmem hx)
      exact ⟨kind, hrecorded⟩
    · obtain ⟨kind, hkind⟩ := h.backed c hc x hx
      exact ⟨kind, hreplaced.kept _ _ hkind⟩
  · rw [hreplaced.catalogs, if_pos rfl]
    rcases mem_cons.mp hc with rfl | hc
    · exact ⟨hreplaced.revision ▸ Nat.succ_pos _, le_rfl⟩
    · exact ⟨(h.bounded c hc).1, (hbelow c hc).le⟩
  · rcases mem_cons.mp hc with rfl | hc
    · rcases mem_cons.mp hc' with rfl | hc'
      · -- one catalog: the ids are distinct
        cases inj_on_of_nodup_map hreplaced.stores.distinct (hmem hx) (hmem hy) hid
        exact ⟨le_rfl, fun _ => rfl⟩
      · exact absurd hle (Nat.not_le.mpr (hbelow c' hc'))
    · rcases mem_cons.mp hc' with rfl | hc'
      · -- an old one and the new one: the old Job is recorded
        obtain ⟨kind, hkind⟩ := h.backed c hc x hx
        rw [hid] at hkind
        refine ⟨hreplaced.newest y (hmem hy) x.revision _ hkind, fun hsame => ?_⟩
        obtain ⟨kind', _, hrecorded⟩ := hreplaced.recorded y (hmem hy)
        have hkept := hreplaced.kept _ _ hkind
        rw [hsame, hrecorded] at hkept
        exact (congrArg AgentJobVersion.definition (Option.some.inj hkept)).symm
      · exact h.neverOlder c hc c' hc' hle x hx y hy hid

theorem Inv.step (h : p.Inv agentId) (call : CatalogCall) :
    (p.step env agentId call).Inv agentId := by
  have hsound := call.sound env p.tables
  unfold CatalogCall.Sound at hsound
  unfold Publication.step
  split at hsound
  · rename_i record d' hserve
    rw [hserve]
    by_cases ha : call.agentId = agentId
    · simp only [if_pos ha]
      exact h.own (ha ▸ hsound.1)
    · simp only [if_neg ha]
      exact h.other hsound.1 ha
  · rename_i d' hserve
    rw [hserve, show d' = p.tables from hsound.1]
    exact h
  · rename_i e d' hserve
    rw [hserve, show d' = p.tables from hsound]
    exact h

end Publication

/-- **The catalogs of a history** have positive revisions and are consistent. -/
theorem published_neverOlder (env : WebEnv) (agentId : String) (calls : List CatalogCall) :
    NeverOlder (published env agentId calls) ∧
      ∀ c ∈ published env agentId calls, 0 < c.catalogRevision := by
  have hstart : Publication.Inv agentId ⟨.empty, []⟩ :=
    ⟨fun c hc => absurd hc not_mem_nil, fun c hc => absurd hc not_mem_nil,
      fun c hc => absurd hc not_mem_nil⟩
  have hstep : ∀ p call, Publication.Inv agentId p → True →
      (Publication.step env agentId p call).Inv agentId := fun p call hp _ => hp.step call
  have hinv := run_invariant hstep calls _ hstart (along_trivial calls _)
  exact ⟨hinv.neverOlder, fun c hc => (hinv.bounded c hc).1⟩

/-! ## 2. Rejections for a revision -/

/-- What `replace_all` says about a revision it does not accept: of the catalog, or of a Job. -/
def revisionMessages : List String :=
  ["replace-all catalog revision must be positive and not older than current",
   "job revision must not move backwards",
   "same job revision contains different definition"]

/-- The command is rejected because of a revision. -/
def IsRevisionRejection (e : ControlError) : Prop :=
  e.code = .revisionConflict ∧ e.message ∈ revisionMessages
  deriving Decidable

/-- A text that begins otherwise is none of them. -/
theorem not_revisionMessage {first : String}
    (h : ∀ message ∈ revisionMessages, ¬ first.toList <+: message.toList) (rest : String) :
    first ++ rest ∉ revisionMessages := by
  intro hmem
  refine h _ hmem ?_
  rw [String.toList_append]
  exact prefix_append _ _

theorem not_revision_of_code {e : ControlError} (h : e.code ≠ .revisionConflict) :
    ¬ IsRevisionRejection e := fun hrejection => h hrejection.1

theorem schedulerError_not_revision (e : SchedulerError) :
    ¬ IsRevisionRejection (schedulerError e) := by
  cases e with
  | versionConflict jobId expected actual =>
    -- the same code, but its text is about the scheduler's version
    have hother : ∀ rest, "job `" ++ rest ∉ revisionMessages :=
      not_revisionMessage (by decide +kernel)
    have htext : (schedulerError (.versionConflict jobId expected actual)).message =
        "job `" ++ Uuid.text jobId ++ "` version conflict: expected " ++ toString expected ++
          ", actual " ++ toString actual := rfl
    simp only [String.append_assoc] at htext
    exact fun hrejection => hother _ (htext ▸ hrejection.2)
  | _ => exact not_revision_of_code (by simp [schedulerError, rejected])

section Checks

variable {e : ControlError} {snapshots : List JobSnapshot}

theorem compileChecked_not_revision {definition : JobDefinition}
    (h : compileChecked factory policy definition = .error e) : ¬ IsRevisionRejection e := by
  rcases bind_eq_error h with h | ⟨-, -, h⟩
  · obtain ⟨cause, rfl⟩ := mapError_eq_error h
    exact not_revision_of_code (by simp [localPolicyError, rejected])
  · obtain ⟨cause, rfl⟩ := mapError_eq_error h
    exact not_revision_of_code (by simp [invalidJob, rejected])

theorem compileAll_not_revision : ∀ {definitions : List JobDefinition} {ids : List JobId},
    compileAll factory policy ids definitions = .error e → ¬ IsRevisionRejection e
  | [], ids, h => by cases h
  | definition :: rest, ids, h => by
    have hinvalid : ∀ message, ¬ IsRevisionRejection (invalidJob message) := fun message =>
      not_revision_of_code (by simp [invalidJob, rejected])
    rcases bind_eq_error h with h | ⟨id, -, h⟩
    · obtain ⟨cause, rfl⟩ := mapError_eq_error h
      exact hinvalid cause
    · split at h
      · cases h
        exact hinvalid _
      rcases bind_eq_error h with h | ⟨job, -, h⟩
      · exact compileChecked_not_revision h
      rcases bind_eq_error h with h | ⟨jobs, -, h⟩
      · exact compileAll_not_revision h
      · cases h

theorem checkGenerations_not_revision : ∀ {entries : List (JobId × ManagedJob)},
      checkGenerations snapshots entries = .error e → ¬ IsRevisionRejection e
  | [], h => by cases h
  | (id, managed) :: rest, h => by
    unfold checkGenerations at h
    split at h
    · split at h
      · exact checkGenerations_not_revision h
      · cases h
        have hother : ∀ rest, "Scheduler generation for " ++ rest ∉ revisionMessages :=
          not_revisionMessage (by decide +kernel)
        rintro ⟨-, hmessage⟩
        simp only [rejected, String.append_assoc] at hmessage
        exact hother _ hmessage
    · cases h
      exact not_revision_of_code (by simp [rejected])

theorem checkOwnership_not_revision : ∀ {ids : List JobId},
    checkOwnership state snapshots ids = .error e → ¬ IsRevisionRejection e
  | [], h => by cases h
  | id :: rest, h => by
    unfold checkOwnership at h
    split at h
    · cases h
      exact not_revision_of_code (by simp [rejected])
    · exact checkOwnership_not_revision h

theorem checkCapacity_not_revision {count maxJobs : Nat}
    (h : checkCapacity state snapshots count maxJobs = .error e) : ¬ IsRevisionRejection e := by
  unfold checkCapacity at h
  dsimp only at h
  split at h
  · cases h
    exact not_revision_of_code (by simp [rejected])
  · cases h

theorem recordApplied_not_revision :
    ∀ {jobs : List CompiledJob} {remoteJobs : Table JobId ManagedJob},
      recordApplied state applied jobs remoteJobs = .error e → ¬ IsRevisionRejection e
  | [], _, h => by cases h
  | job :: rest, _, h => by
    unfold recordApplied at h
    split at h
    · exact recordApplied_not_revision h
    · cases h
      exact not_revision_of_code (by simp [rejected])

/-- The two checks of a Job's revision. -/
theorem planJobs_succeeds : ∀ {jobs : List CompiledJob},
    (∀ job ∈ jobs, ∀ current, state.remoteJobs.get job.id = some current →
      current.revision ≤ job.revision ∧
        (current.revision = job.revision → current.definition = job.definition)) →
    ∃ plan, planJobs state jobs = .ok plan
  | [], _ => ⟨_, rfl⟩
  | job :: rest, h => by
    obtain ⟨plan, hplan⟩ := planJobs_succeeds fun job' hjob' => h job' (mem_cons_of_mem _ hjob')
    have hjob := h job mem_cons_self
    unfold planJobs
    rw [hplan]
    cases hget : state.remoteJobs.get job.id with
    | none => exact ⟨_, rfl⟩
    | some current =>
      obtain ⟨hle, hsame⟩ := hjob current hget
      simp only
      rw [if_neg (Nat.not_lt.mpr hle), if_neg fun hboth => hboth.2 (hsame hboth.1.symm).symm]
      split <;> exact ⟨_, rfl⟩

end Checks

/-! ## 3. The controller and the history -/

theorem foldl_bytes_injective : ∀ {xs ys : List UInt8} {n m : Nat}, xs.length = ys.length →
    xs.foldl (fun n b => n * 256 + b.toNat) n = ys.foldl (fun n b => n * 256 + b.toNat) m →
      n = m ∧ xs = ys
  | [], [], _, _, _, h => ⟨h, rfl⟩
  | x :: xs, y :: ys, n, m, hlength, h => by
    obtain ⟨hhead, rfl⟩ := foldl_bytes_injective (Nat.succ.inj hlength) h
    have hx := x.toNat_lt
    have hy := y.toNat_lt
    replace hhead : n * 256 + x.toNat = m * 256 + y.toNat := hhead
    have hbyte : x.toNat = y.toNat := by omega
    exact ⟨by omega, by rw [UInt8.toNat_inj.mp hbyte]⟩

/-- An id is written in one way. -/
theorem parseUuid_injective {bytes bytes' : List UInt8} {field : String} {id : JobId}
    (h : parseUuid bytes field = .ok id) (h' : parseUuid bytes' field = .ok id) : bytes = bytes' := by
  obtain ⟨hlength, rfl⟩ := parseUuid_ok h
  obtain ⟨hlength', hnumber⟩ := parseUuid_ok h'
  exact (foldl_bytes_injective (hlength.trans hlength'.symm) hnumber.symm).2

/-- Whatever the controller holds comes from a catalog of the history, and from none above the
    revision it has applied last. -/
def Tracks (catalogs : List ReplaceAllJobs) (state : ControllerState) : Prop :=
  ∀ id managed, state.remoteJobs.get id = some managed →
    ∃ c ∈ catalogs, c.catalogRevision ≤ state.catalogRevision ∧ managed.definition ∈ c.jobs ∧
      managed.revision = managed.definition.revision ∧
      parseUuid managed.definition.jobId "job_id" = .ok id

/-- The command is a catalog of the history, without some of its Jobs. -/
def SelectedFrom (catalogs : List ReplaceAllJobs) (command : ReplaceAllJobs) : Prop :=
  ∃ c ∈ catalogs, command.catalogRevision = c.catalogRevision ∧ command.jobs ⊆ c.jobs
  deriving Decidable

/-- What `replace_all` answers: the history is still tracked, at the new revision, or the error is
    not about a revision. -/
def Accepts (catalogs : List ReplaceAllJobs) (revision : Nat) :
    Except ControlError (ControllerState × Option JobStatus) → Prop
  | .ok (state, _) => Tracks catalogs state ∧ state.catalogRevision = revision
  | .error e => ¬ IsRevisionRejection e

section Delivered

variable {catalogs : List ReplaceAllJobs} {command : ReplaceAllJobs}
  {jobs : List CompiledJob}

/-- No Job of the catalog is older than the one held, nor is it another one under its revision. -/
theorem Tracks.not_older (htracks : Tracks catalogs state) (hnever : NeverOlder catalogs)
    (hselected : SelectedFrom catalogs command)
    (horder : state.catalogRevision ≤ command.catalogRevision)
    (hcompiled : compileAll factory policy [] command.jobs = .ok jobs) :
    ∀ job ∈ jobs, ∀ current, state.remoteJobs.get job.id = some current →
      current.revision ≤ job.revision ∧
        (current.revision = job.revision → current.definition = job.definition) := by
  intro job hjob current hcurrent
  obtain ⟨c, hc, hrevision, hsubset⟩ := hselected
  obtain ⟨-, -, hdefinitions, hparsed⟩ := compileAll_ok hcompiled
  obtain ⟨-, hid, hjobRevision⟩ := hparsed job hjob
  obtain ⟨c', hc', hbefore, hmem', hcurrentRevision, hid'⟩ := htracks job.id current hcurrent
  have hmem : job.definition ∈ c.jobs := by
    refine hsubset ?_
    rw [← hdefinitions]
    exact mem_map_of_mem hjob
  have hle : c'.catalogRevision ≤ c.catalogRevision := by omega
  rw [hcurrentRevision, hjobRevision]
  exact hnever c' hc' c hc hle _ hmem' _ hmem (parseUuid_injective hid' hid)

/-- The record of a catalog that has been carried out. -/
theorem Tracks.recorded (hselected : SelectedFrom catalogs command)
    (hcompiled : compileAll factory policy [] command.jobs = .ok jobs)
    {remoteJobs : Table JobId ManagedJob}
    (hrecord : recordApplied state applied jobs Table.empty = .ok remoteJobs) : Tracks catalogs
      { state with remoteJobs := remoteJobs, catalogRevision := command.catalogRevision } := by
  intro id managed hget
  obtain ⟨c, hc, hrevision, hsubset⟩ := hselected
  obtain ⟨hnodup, -, hdefinitions, hparsed⟩ := compileAll_ok hcompiled
  by_cases hid : id ∈ jobs.map CompiledJob.id
  · obtain ⟨job, hjob, rfl⟩ := mem_map.mp hid
    obtain ⟨generation, -, hmanaged⟩ := recordApplied_get state hrecord hnodup hjob
    rw [hmanaged] at hget
    cases hget
    obtain ⟨-, hparse, hjobRevision⟩ := hparsed job hjob
    refine ⟨c, hc, hrevision.ge, hsubset ?_, hjobRevision, hparse⟩
    rw [← hdefinitions]
    exact mem_map_of_mem hjob
  · rw [recordApplied_other state hrecord hid] at hget
    cases hget

/-- **One delivery.** -/
theorem replaceAll_ends (htracks : Tracks catalogs state) (hnever : NeverOlder catalogs)
    (hpositive : ∀ c ∈ catalogs, 0 < c.catalogRevision) (hselected : SelectedFrom catalogs command)
    (horder : state.catalogRevision ≤ command.catalogRevision) :
    Client.Ends (Accepts catalogs command.catalogRevision)
      (replaceAll factory policy state command) := by
  refine ends_checked (fun e he => ?_) fun _ _ => ?_
  · obtain ⟨c, hc, hrevision, -⟩ := hselected
    have := hpositive c hc
    unfold requireReplaceAllCatalog at he
    rw [if_neg (by omega)] at he
    cases he
  refine ends_checked (fun e he => compileAll_not_revision he) fun jobs hcompiled => ?_
  refine ends_onScheduler schedulerError_not_revision fun snapshots => ?_
  refine ends_checked (fun e he => checkGenerations_not_revision he) fun _ _ => ?_
  refine ends_checked (fun e he => checkOwnership_not_revision he) fun _ _ => ?_
  refine ends_onScheduler schedulerError_not_revision fun scheduler => ?_
  refine ends_checked (fun e he => checkCapacity_not_revision he) fun _ _ => ?_
  refine ends_checked (fun e he => ?_) fun plan _ => ?_
  · obtain ⟨plan, hplan⟩ :=
      planJobs_succeeds (htracks.not_older hnever hselected horder hcompiled)
    rw [hplan] at he
    cases he
  refine ends_onScheduler schedulerError_not_revision fun applied => ?_
  refine ends_checked (fun e he => recordApplied_not_revision he) fun remoteJobs hrecord => ?_
  exact ⟨Tracks.recorded hselected hcompiled hrecord, rfl⟩

end Delivered

/-! ## 4. Deliveries in order -/

/-- A catalog sent to the Agent: what its policy is then, how definitions are compiled, and what the
    scheduler does by itself before each of its answers. -/
structure Delivery where
  command : ReplaceAllJobs
  policy : RemoteJobPolicy
  factory : TaskFactory
  script : Script

/-- What the Agent's controller answers. -/
def Delivery.answer (env : Env) (s : ControllerState × SchedulerActor) (delivery : Delivery) :
    Except ControlError (ControllerState × Option JobStatus) :=
  (perform env (replaceAll delivery.factory delivery.policy s.1 delivery.command) delivery.script
    s.2).1

/-- A delivery; the controller keeps its state if it fails. -/
def Delivery.step (env : Env) (s : ControllerState × SchedulerActor) (delivery : Delivery) :
    ControllerState × SchedulerActor :=
  let result :=
    perform env (replaceAll delivery.factory delivery.policy s.1 delivery.command) delivery.script s.2
  match result.1 with
  | .ok (state, _) => (state, result.2)
  | .error _ => (s.1, result.2)

/-- The answer is no rejection because of a revision. -/
def Delivery.Acceptable (env : Env) (s : ControllerState × SchedulerActor) (delivery : Delivery) :
    Prop :=
  ∀ e, delivery.answer env s = .error e → ¬ IsRevisionRejection e

/-- The deliveries, from any state that tracks the history and is not ahead of them. -/
theorem deliveries_acceptable {catalogs : List ReplaceAllJobs} {env : Env}
    (hnever : NeverOlder catalogs) (hpositive : ∀ c ∈ catalogs, 0 < c.catalogRevision) :
    ∀ {deliveries : List Delivery} {s : ControllerState × SchedulerActor}, Tracks catalogs s.1 →
      (∀ d ∈ deliveries, SelectedFrom catalogs d.command) →
      (s.1.catalogRevision :: deliveries.map fun d => d.command.catalogRevision).Pairwise (· ≤ ·) →
      Along (Delivery.step env) (Delivery.Acceptable env) s deliveries
  | [], _, _, _, _ => trivial
  | d :: rest, s, htracks, hselected, horder => by
    obtain ⟨hfirst, hrest⟩ := pairwise_cons.mp horder
    have hends : Accepts catalogs d.command.catalogRevision (d.answer env s) :=
      (replaceAll_ends htracks hnever hpositive (hselected d mem_cons_self)
        (hfirst _ mem_cons_self)).exec _ _ d.script s.2
    have hselected' : ∀ d' ∈ rest, SelectedFrom catalogs d'.command :=
      fun d' hd' => hselected d' (mem_cons_of_mem _ hd')
    refine ⟨fun e he => ?_, ?_⟩
    · rw [he] at hends
      exact hends
    · unfold Delivery.step
      dsimp only
      split
      · rename_i state status hok
        rw [show d.answer env s = .ok (state, status) from hok] at hends
        refine deliveries_acceptable hnever hpositive hends.1 hselected' ?_
        rw [hends.2]
        exact hrest
      · refine deliveries_acceptable hnever hpositive htracks hselected' ?_
        exact pairwise_cons.mpr
          ⟨fun r hr => hfirst r (mem_cons_of_mem _ hr), (pairwise_cons.mp hrest).2⟩

/-- **Accepted catalogs are acceptable.** Whatever replacements the Server has accepted for an Agent,
    and whichever of the resulting catalogs it sends, each without any of its Jobs: if they come in the
    order of their revisions, the Agent's controller rejects none because of the catalog's revision or
    a Job's. -/
theorem accepted_catalogs_acceptable (webEnv : WebEnv) (agentId : String)
    (calls : List CatalogCall) (env : Env) (scheduler : SchedulerActor) (deliveries : List Delivery)
    (hselected : ∀ d ∈ deliveries, SelectedFrom (published webEnv agentId calls) d.command)
    (horder : deliveries.Pairwise fun d d' =>
      d.command.catalogRevision ≤ d'.command.catalogRevision) :
    Along (Delivery.step env) (Delivery.Acceptable env) (.new, scheduler) deliveries := by
  obtain ⟨hnever, hpositive⟩ := published_neverOlder webEnv agentId calls
  refine deliveries_acceptable hnever hpositive (fun id managed hget => ?_) hselected ?_
  · cases (hget : (Table.empty : Table JobId ManagedJob).get id = some managed)
  · refine pairwise_cons.mpr ⟨fun r _ => Nat.zero_le r, ?_⟩
    exact pairwise_map.mpr horder

section Returning

/-- The first Job is taken out of the catalog and comes back. -/
def comesBack : List CatalogCall :=
  [.direct "agent-1" [pollingAs 1 1, pollingAs 2 1] none,
   .direct "agent-1" [pollingAs 2 2] none,
   .direct "agent-1" [pollingAs 1 1, pollingAs 2 2] none]

def sent (catalogRevision : Nat) (jobs : List JobDefinition) : Delivery :=
  ⟨⟨catalogRevision, jobs⟩, {}, .lenient, []⟩

/-- The Agent gets the first catalog and the third, each without one of its Jobs. -/
def oneOfTwo : List Delivery := [sent 1 [pollingAs 1 1], sent 3 [pollingAs 2 2]]

/-- Both are applied. -/
theorem comesBack_acceptable : Along (Delivery.step .still) (Delivery.Acceptable .still)
        (.new, start .still { globalConcurrency := 4 }) oneOfTwo ∧
      (run (Delivery.step .still) (.new, start .still { globalConcurrency := 4 })
        oneOfTwo).1.catalogRevision = 3 :=
  ⟨accepted_catalogs_acceptable .lenient "agent-1" comesBack .still _ oneOfTwo (by decide +kernel)
    (by decide +kernel), by decide +kernel⟩

end Returning

end Smalux.Server
