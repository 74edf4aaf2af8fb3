/-
  Subject:   The Jobs in a catalog that is sent.

  Catalogs are computed from what is accepted at that moment, except for one: when a plugin is paused,
  the catalog remembered goes out again without the plugin's Jobs, as it was computed then. A policy,
  a capability, an inventory or a runtime accepted since is not looked at; as long as the runtime is
  not ready, nothing has been computed for it either.

  * `admissible` -- a Job that may be sent;
  * `fresh` -- nothing has been accepted since a catalog was computed;
  * **`sent_jobs_admissible`** -- all Jobs sent are, if pauses find the record fresh.
-/
import Smalux.Session.Monitors

namespace Smalux.Session

open Lib Server List Proto

/-! ## 1. What may be sent -/

/-- Allowed by the policy accepted last, known from the capability or the inventory accepted last,
    and, if the Job is a plugin's, configured in the runtime acknowledged last. -/
def allowed (record : List Entry) (job : JobDefinition) : Bool :=
  match taskKind job, lastPolicy record, lastCapability record, lastInventory record with
  | .ok kind, some policy, some capability, some inventory =>
    !deniesAllOrKind policy kind && knownKind capability inventory kind &&
      match pluginOf job with
      | none => true
      | some plugin => (lastRuntime record).any (configured · plugin)
  | _, _, _, _ => false

/-- The Job is not one of a paused plugin. -/
def notPaused (agentId : String) (paused : Pauses) (job : JobDefinition) : Bool :=
  match pluginOf job with
  | none => true
  | some plugin => !paused.contains (agentId, plugin.pluginId, plugin.pluginVersion)

def admissible (agentId : String) (record : List Entry) (paused : Pauses)
    (job : JobDefinition) : Bool :=
  allowed record job && notPaused agentId paused job

/-- The Jobs sent, and what was paused then. -/
def Entry.replaced : Entry → Option (ReplaceAllJobs × Pauses)
  | .replaceAll _ catalog paused => some (catalog, paused)
  | _ => none

/-- Each Job that is sent may be sent. -/
def Admitted (env : SessionEnv) (e : Entry) (past : List Entry) : Prop :=
  ∀ sent ∈ e.replaced, ∀ job ∈ sent.1.jobs, admissible env.agentId past sent.2 job = true
  deriving Decidable

/-! ## 2. The condition -/

/-- Since a catalog was computed nothing else has been accepted or acknowledged. -/
def fresh : List Entry → Bool
  | [] => false
  | .computedCatalog _ :: _ => true
  | .acceptedPolicy policy :: past => lastPolicy past = some policy && fresh past
  | .acceptedCapability capability :: past => lastCapability past = some capability && fresh past
  | .acceptedInventory inventory :: past => lastInventory past = some inventory && fresh past
  | .runtimeReady runtime :: past => lastRuntime past = some runtime && fresh past
  | _ :: past => fresh past

/-- A notice about a plugin of the runtime finds the record fresh, if there is a catalog to send. -/
def PausesFresh (d : Desk) : Act → Prop
  | .event (.pauseNotice notice) _ =>
    Desk.validPause d.session notice = true → d.session.lastSentCatalog ≠ none →
      fresh d.record = true
  | _ => True

instance PausesFresh.decidable (d : Desk) : ∀ act, Decidable (PausesFresh d act)
  | .outside _ => .isTrue trivial
  | .event event _ =>
    match event with
    | .pauseNotice _ => inferInstanceAs (Decidable (_ → _ → _))
    | .catalogChanged | .runtimeChanged | .policy _ | .summary _ | .capability _ | .inventory _
    | .schemaResponse _ | .acknowledgement _ | .pauseAcknowledgement | .otherPlugin
    | .commandResult _ | .taskReport | .jobEvent | .other | .closed => .isTrue trivial

/-! ## 3. The catalog remembered -/

section Rule

variable {env : SessionEnv} {d d' : Desk} {record : List Entry} {catalog : ReplaceAllJobs}
  {event : Event}

/-- The catalog remembered, while the record is fresh. -/
structure Admits (env : SessionEnv) (d : Desk) : Prop where
  linked : Linked d
  remembered : d.running = true → fresh d.record = true →
    ∀ catalog, d.session.lastSentCatalog = some catalog →
      ∀ job ∈ catalog.jobs, allowed d.record job = true
  admitted : Always (Admitted env) d.record

/-- With what is known when the event is a notice. -/
structure Resends (env : SessionEnv) (event : Event) (d : Desk) : Prop where
  admits : Admits env d
  running : d.running = true
  fresh : ∀ notice, event = .pauseNotice notice → Desk.validPause d.session notice = true →
    d.session.lastSentCatalog ≠ none → fresh d.record = true

theorem Calm.fresh (h : Calm d d') : fresh d'.record = fresh d.record :=
  h.look fun e _ he => by cases e <;> first | rfl | cases he

/-- What is allowed depends on what was accepted and acknowledged last. -/
theorem allowed_congr {record' : List Entry} (hpolicy : lastPolicy record' = lastPolicy record)
    (hcapability : lastCapability record' = lastCapability record)
    (hinventory : lastInventory record' = lastInventory record)
    (hruntime : lastRuntime record' = lastRuntime record) : allowed record' = allowed record := by
  funext job
  unfold allowed
  rw [hpolicy, hcapability, hinventory, hruntime]

/-- `record'` is fresh only if `record` is, and then allows the same. -/
def Refreshes (record record' : List Entry) : Prop :=
  fresh record' = true → fresh record = true ∧ allowed record' = allowed record

namespace Refreshes

variable {record : List Entry}

theorem policy (policy : AgentJobPolicySnapshot) :
    Refreshes record (.acceptedPolicy policy :: record) := fun h =>
  have ⟨hsame, hfresh⟩ := Bool.and_eq_true_iff.mp h
  ⟨hfresh, allowed_congr (of_decide_eq_true hsame).symm rfl rfl rfl⟩

theorem capability (capability : AgentCapabilitySnapshot) :
    Refreshes record (.acceptedCapability capability :: record) := fun h =>
  have ⟨hsame, hfresh⟩ := Bool.and_eq_true_iff.mp h
  ⟨hfresh, allowed_congr rfl (of_decide_eq_true hsame).symm rfl rfl⟩

theorem inventory (inventory : AgentPluginInventory) :
    Refreshes record (.acceptedInventory inventory :: record) := fun h =>
  have ⟨hsame, hfresh⟩ := Bool.and_eq_true_iff.mp h
  ⟨hfresh, allowed_congr rfl rfl (of_decide_eq_true hsame).symm rfl⟩

theorem runtime (runtime : PluginRuntimeSnapshot) :
    Refreshes record (.runtimeReady runtime :: record) := fun h =>
  have ⟨hsame, hfresh⟩ := Bool.and_eq_true_iff.mp h
  ⟨hfresh, allowed_congr rfl rfl rfl (of_decide_eq_true hsame).symm⟩

end Refreshes

variable {turn : Turn} {policy : AgentJobPolicySnapshot}
  {capability : AgentCapabilitySnapshot} {inventory : AgentPluginInventory}
  {runtime : PluginRuntimeSnapshot}

theorem Admitted.quiet (e : Entry) (past : List Entry) (h : e.quiet = true) :
    Admitted env e past := by
  have hnone : e.replaced = none := by cases e <;> first | rfl | cases h
  intro sent hsent
  rw [hnone] at hsent
  cases hsent

/-- What the filters let through, with the variables at hand, may be sent. -/
theorem admissible_of_keeps {agentId : String} {pauses : Pauses} {job : JobDefinition}
    (hpolicy : lastPolicy record = some policy)
    (hcapability : lastCapability record = some capability)
    (hinventory : lastInventory record = some inventory)
    (hruntime : lastRuntime record = some runtime)
    (h : keeps agentId policy capability inventory runtime pauses job = true) :
    admissible agentId record pauses job = true := by
  unfold keeps at h
  unfold admissible allowed notPaused
  rw [hpolicy, hcapability, hinventory, hruntime]
  cases hkind : taskKind job with
  | error =>
    rw [hkind] at h
    cases h
  | ok =>
    rw [hkind] at h
    cases hplugin : pluginOf job with
    | none =>
      rw [hplugin] at h
      simpa only [Bool.and_true] using h
    | some =>
      rw [hplugin] at h
      simpa only [active, Option.any_some, Bool.and_assoc] using h

theorem Admits.calm (hcalm : Calm d d') (h : Admits env d) : Admits env d' := by
  obtain ⟨revision, hsession⟩ := hcalm.session
  have hallowed := allowed_congr hcalm.lastPolicy hcalm.lastCapability hcalm.lastInventory
    hcalm.lastRuntime
  refine ⟨h.linked.calm hcalm, ?_, hcalm.always .quiet h.admitted⟩
  rw [hallowed, hcalm.running, hsession, hcalm.fresh]
  exact h.remembered

theorem Resends.calm (hcalm : Calm d d') (h : Resends env event d) : Resends env event d' := by
  obtain ⟨revision, hsession⟩ := hcalm.session
  refine ⟨h.admits.calm hcalm, hcalm.running.trans h.running, ?_⟩
  rw [hsession, hcalm.fresh]
  exact h.fresh

/-- What is remembered under a record that is fresh is still allowed. -/
theorem Admits.refreshed (h : Admits env d) (hrecord : Refreshes d.record record) :
    d.running = true → fresh record = true → ∀ catalog, d.session.lastSentCatalog = some catalog →
        ∀ job ∈ catalog.jobs, allowed record job = true := by
  intro hrunning hfresh catalog hcatalog job hjob
  obtain ⟨hbefore, hsame⟩ := hrecord hfresh
  rw [hsame]
  exact h.remembered hrunning hbefore catalog hcatalog job hjob

/-- The catalog computed. -/
theorem admissible_of_computed (h : Linked d)
    (hrequest : d.session.request = some (policy, capability, inventory))
    (hruntime : d.session.sentPluginRuntime = some runtime)
    (hcomputed : sessionCatalog env.agentId policy capability inventory runtime d.world.pauses
      d.world.jobs.tables = some catalog) :
    ∀ job ∈ catalog.jobs, admissible env.agentId d.record d.world.pauses job = true := by
  intro job hjob
  obtain ⟨hready, hpolicy, hcapability, hinventory⟩ := BusinessSession.request_eq_some hrequest
  obtain ⟨sent, hsent, hlast⟩ := h.runtime hready
  cases hsent.symm.trans hruntime
  rw [sessionCatalog_eq] at hcomputed
  obtain ⟨revision, -, rfl⟩ := Option.map_eq_some_iff.mp hcomputed
  exact admissible_of_keeps (h.policy.symm.trans hpolicy) (h.capability.symm.trans hcapability)
    (h.inventory.symm.trans hinventory) hlast (mem_filter.mp hjob).2

/-- **What becomes of a catalog**: it is remembered as it was computed. -/
theorem Admits.deliver {force : Bool} {out : Desk × Bool} (h : Admits env d)
    (hjobs : ∀ job ∈ catalog.jobs, admissible env.agentId d.record d.world.pauses job = true)
    (hlinked : Linked out.1) (hdelivered : Delivered env turn
      ((d.log (.loadCatalog policy capability inventory)).log (.computedCatalog catalog)) force
      catalog out) : Admits env out.1 := by
  have hallowed : ∀ job ∈ catalog.jobs, allowed d.record job = true := fun job hjob =>
    (Bool.and_eq_true_iff.mp (hjobs job hjob)).1
  cases hdelivered with
  | already hunforced hsent =>
    refine ⟨hlinked, fun _ _ remembered hremembered => ?_, nofun, nofun, nofun, h.admitted⟩
    cases hsent.symm.trans hremembered
    exact hallowed
  | named =>
    refine ⟨hlinked, fun _ _ remembered hremembered => ?_, nofun, nofun, nofun, h.admitted⟩
    cases hremembered
    exact hallowed
  | sent =>
    refine ⟨hlinked, fun _ _ remembered hremembered => ?_, fun sent hsent => ?_, nofun, nofun,
      h.admitted⟩
    · cases hremembered
      exact hallowed
    · cases (hsent : some (catalog, d.world.pauses) = some sent)
      exact hjobs
  | refused => exact ⟨hlinked, nofun, nofun, nofun, h.admitted⟩

theorem admitRule (hl : HandleRule env turn event Linked Linked) :
    HandleRule env turn event (Resends env event) (Admits env) where
  calm := Resends.calm
  calmAfter := Admits.calm
  done := fun h => h.admits
  stop := fun h => ⟨hl.stop h.admits.linked, nofun, h.admits.admitted⟩
  converged := fun h => ⟨hl.converged h.linked, h.remembered, h.admitted⟩
  policy := fun policy hevent ⟨h, hrunning, _⟩ =>
    ⟨⟨hl.policy policy hevent h.linked, h.refreshed (.policy policy), nofun, h.admitted⟩, hrunning,
      fun _ hnotice => nomatch hevent.symm.trans hnotice⟩
  capability := fun capability hevent ⟨h, hrunning, _⟩ =>
    ⟨⟨hl.capability capability hevent h.linked, h.refreshed (.capability capability), nofun,
      h.admitted⟩, hrunning, fun _ hnotice => nomatch hevent.symm.trans hnotice⟩
  inventory := fun inventory missing hevent hvalid ⟨h, hrunning, _⟩ =>
    ⟨⟨hl.inventory inventory missing hevent hvalid h.linked, h.refreshed (.inventory inventory), nofun,
      nofun, h.admitted⟩, hrunning, fun _ hnotice => nomatch hevent.symm.trans hnotice⟩
  unchecked := fun inventory reason hevent hvalid hmissing ⟨h, hrunning, _⟩ =>
    ⟨⟨hl.unchecked inventory reason hevent hvalid hmissing h.linked,
      h.refreshed (.inventory inventory), nofun, h.admitted⟩, hrunning,
      fun _ hnotice => nomatch hevent.symm.trans hnotice⟩
  unsaved := fun inventory ⟨h, _, _⟩ =>
    ⟨hl.unsaved inventory h.linked, nofun, nofun, h.admitted⟩
  schema := fun response schemas pending hevent ⟨h, hrunning, hfresh⟩ =>
    ⟨⟨hl.schema response schemas pending hevent h.linked, h.remembered, h.admitted⟩, hrunning, hfresh⟩
  reset := fun hevent ⟨h, hrunning, _⟩ =>
    ⟨⟨hl.reset hevent h.linked, h.remembered, h.admitted⟩, hrunning,
      fun _ hnotice => nomatch hevent.symm.trans hnotice⟩
  runtime := by
    rintro d d' inventory hevent hinventory hpending hloaded ⟨h, hrunning, _⟩
    have hlinked := hl.runtime inventory hevent hinventory hpending hloaded h.linked
    refine ⟨?_, ?_, ?_⟩
    · cases hloaded with
      | unavailable => exact ⟨hlinked, h.remembered, nofun, h.admitted⟩
      | named pauses snapshot =>
        exact ⟨hlinked, h.refreshed (.runtime snapshot), nofun, nofun, h.admitted⟩
      | sent => exact ⟨hlinked, h.remembered, nofun, nofun, h.admitted⟩
    · cases hloaded <;> exact hrunning
    · rintro notice rfl
      cases hevent
  acknowledged := fun ack runtime hevent hruntime ⟨h, hrunning, _⟩ =>
    ⟨⟨hl.acknowledged ack runtime hevent hruntime h.linked, h.refreshed (.runtime runtime), nofun,
      h.admitted⟩, hrunning, fun _ hnotice => nomatch hevent.symm.trans hnotice⟩
  panic := fun hready hruntime ⟨h, _, _⟩ =>
    ⟨hl.panic hready hruntime h.linked, nofun, nofun, h.admitted⟩
  unavailable := fun policy capability inventory hrequest ⟨h, _, _⟩ =>
    ⟨hl.unavailable policy capability inventory hrequest h.linked, h.remembered, nofun, h.admitted⟩
  deliver := by
    intro d out force policy capability inventory runtime catalog hrequest hruntime hforce hcomputed
      hdelivered h
    have hlinked := hl.deliver force policy capability inventory runtime catalog hrequest hruntime
      hforce hcomputed hdelivered h.admits.linked
    exact h.admits.deliver (admissible_of_computed h.admits.linked hrequest hruntime hcomputed)
      hlinked hdelivered
  paused := fun notice pauses hevent ⟨h, hrunning, hfresh⟩ =>
    ⟨⟨hl.paused notice pauses hevent h.linked, h.remembered, h.admitted⟩, hrunning, hfresh⟩
  resend := by
    rintro d notice catalog hevent hvalid hlast ⟨h, hrunning, hfresh⟩
    have hlinked := hl.resend notice catalog hevent hvalid hlast h.linked
    have hallowed := h.remembered hrunning (hfresh notice hevent hvalid (by rw [hlast]; nofun))
      catalog hlast
    -- the catalog remembered, without the Jobs of paused plugins
    have hjobs : ∀ job ∈ (d.world.pauses.filterCatalog env.agentId catalog).jobs,
        admissible env.agentId d.record d.world.pauses job = true := by
      intro job hjob
      obtain ⟨hin, hactive⟩ := mem_filter.mp hjob
      exact Bool.and_eq_true_iff.mpr ⟨hallowed job hin, hactive⟩
    refine ⟨hlinked, fun _ _ remembered hremembered => ?_, fun sent hsent => ?_, h.admitted⟩
    · cases hremembered
      exact fun job hjob => (Bool.and_eq_true_iff.mp (hjobs job hjob)).1
    · cases hsent
      exact hjobs

theorem Resends.received (h : Admits env d) (hrunning : d.running = true)
    (hok : PausesFresh d (.event event turn)) (hevent : ∀ summary, event ≠ .summary summary) :
    Resends env event (d.log (.received event)) := by
  refine ⟨⟨h.linked.received hevent, h.remembered, nofun, h.admitted⟩, hrunning, ?_⟩
  rintro notice rfl
  exact hok

theorem Admits.onSummary (h : Admits env d) (summary : AgentReconcileSummary) :
    Admits env ((d.log (.received (.summary summary))).onSummary env summary) := by
  have hlinked := h.linked.onSummary env summary
  unfold Desk.onSummary at hlinked ⊢
  split at hlinked <;> exact ⟨hlinked, h.remembered, nofun, h.admitted⟩

/-- **One iteration.** -/
theorem Admits.step (h : Admits env d) {act : Act} (hok : PausesFresh d act) :
    Admits env (step env d act) := by
  cases act with
  | outside world => exact ⟨h.linked.step env (.outside world), h.remembered, h.admitted⟩
  | event event turn =>
    show Admits env (if d.running = true then d.handle env turn event else d)
    split
    · rename_i hrunning
      refine (admitRule (Linked.rule env turn event)).handle ?_ (.received h hrunning hok)
      rintro summary rfl
      exact h.onSummary summary
    · exact h

theorem Admits.start (env : SessionEnv) (world : World) : Admits env (.start world) :=
  ⟨Linked.start world, nofun, nofun, nofun, trivial⟩

end Rule

/-! ## 4. What is sent -/

/-- **In every run in which pauses find the record fresh, every Job sent may be sent.** -/
theorem sent_jobs_admissible (env : SessionEnv) (world : World) (acts : List Act)
    (h : Along (step env) PausesFresh (.start world) acts) :
    Always (Admitted env) (run (step env) (.start world) acts).record := by
  have hstep : ∀ d act, Admits env d → PausesFresh d act → Admits env (step env d act) :=
    fun _ _ hinv hok => hinv.step hok
  exact (run_invariant hstep acts (.start world) (Admits.start env world) h).admitted

def echoPaused : Event := .pauseNotice ⟨"plus.echo", "1.0.0", 2, 3⟩

/-- The plugin is paused: its Job is withdrawn. -/
theorem paused_job_withdrawn :
    let acts := signOn ++ [plainly 5 echoPaused]
    let record := (run (step echoAgent) (.start echoWorld) acts).record
    record.filterMap (fun e => e.replaced.map fun sent => sent.1.jobs) =
        [[cpuJob 1 1], [cpuJob 1 1, pluginJob 2 "plus.echo" "plus.echo.v1"]] ∧
      Always (Admitted echoAgent) record :=
  ⟨by decide +kernel, sent_jobs_admissible echoAgent echoWorld _ (by decide +kernel)⟩

/-- **A Job that the policy denies is sent again**: the runtime has changed and is not acknowledged
    yet, the Agent denies everything, and then pauses its plugin. -/
theorem denied_job_sent_again :
    let acts := signOn ++ [plainly 5 .runtimeChanged, plainly 6 (.policy (some ⟨2, true, []⟩)),
      plainly 7 echoPaused]
    let record := (run (step echoAgent) (.start echoWorld) acts).record
    lastPolicy record = some ⟨2, true, []⟩ ∧ lastReplaceAll record = some ([7], ⟨1, [cpuJob 1 1]⟩) ∧
      ¬ Always (Admitted echoAgent) record := by
  decide +kernel

end Smalux.Session
