/-
  Subject:   The catalog is evaluated whenever it can be.

  Each handler that makes an evaluation possible carries it out itself, with its own copy of the code.
  Two of them leave it out: when the runtime is loaded because the last schema has come or because the
  configuration has changed, and turns out to be the one the Agent's summary names, the runtime is
  ready at once, and nothing is evaluated. And an inventory whose schemas are others' takes the place
  of the one for which the catalog was evaluated.

  * `evaluated` -- an evaluation since the last change;
  * **`catalog_evaluated`** -- in every state, unless a runtime is named in these two handlers or an
    inventory fails its check while the runtime is ready; no `expect` fails.
-/
import Smalux.Session.Monitors

namespace Smalux.Session

open Lib Server List Proto BusinessSession

/-! ## 1. Evaluations -/

/-- `send_job_catalog` has been called since policy, capability and inventory changed last and the
    runtime became ready. -/
def evaluated : List Entry → Bool
  | [] => false
  | .loadCatalog _ _ _ :: _ => true
  | .acceptedPolicy policy :: past => lastPolicy past = some policy && evaluated past
  | .acceptedCapability capability :: past => lastCapability past = some capability && evaluated past
  | .acceptedInventory inventory :: past => lastInventory past = some inventory && evaluated past
  | .runtimeReady _ :: _ => false
  | _ :: past => evaluated past

def Entry.isPanic : Entry → Bool
  | .panicked => true
  | _ => false

/-- What can be evaluated has been; a runtime that is ready is there; nothing has panicked. -/
structure Evaluated (d : Desk) : Prop where
  current : d.running = true → d.session.request.isSome = true → evaluated d.record = true
  ready : d.session.pluginRuntimeReady = true → d.session.sentPluginRuntime.isSome = true
  sane : d.record.any Entry.isPanic = false

instance Evaluated.decidable (d : Desk) : Decidable (Evaluated d) :=
  decidable_of_iff
    ((d.running = true → d.session.request.isSome = true → evaluated d.record = true) ∧
      (d.session.pluginRuntimeReady = true → d.session.sentPluginRuntime.isSome = true) ∧
      d.record.any Entry.isPanic = false)
    ⟨fun h => ⟨h.1, h.2.1, h.2.2⟩, fun h => ⟨h.current, h.ready, h.sane⟩⟩

/-! ## 2. The condition -/

/-- A policy and a capability have been accepted. -/
def introduced (s : BusinessSession) : Bool := s.acceptedPolicy.isSome && s.acceptedCapability.isSome

/-- No summary is held that names the revision of the runtime configuration stored, or everything is
    sent anyway. -/
def RuntimeUnnamed (env : SessionEnv) (d : Desk) : Prop :=
  d.session.forceReconcile = true ∨ ∀ summary ∈ d.session.reconcileSummary,
    summary.runtimeRevision ≠ runtimeRevision d.world.runtimes env.agentId
  deriving Decidable

/-- Once policy and capability are there, a change of the runtime configuration and the last schema
    find the runtime unnamed, and a valid inventory that fails its check comes while no runtime is
    ready, or is the one accepted. -/
def LoadsLate (env : SessionEnv) (d : Desk) : Act → Prop
  | .event .runtimeChanged _ =>
    d.session.acceptedPluginInventory ≠ none → introduced d.session = true → RuntimeUnnamed env d
  | .event (.schemaResponse response) _ =>
    d.session.pendingSchemaHashes = [response.schemaHash] → introduced d.session = true →
      RuntimeUnnamed env d
  | .event (.inventory inventory) turn =>
    validatePluginInventory inventory = .ok () →
    (d.missingSchemas turn inventory).toOption = none → introduced d.session = true →
    d.session.pluginRuntimeReady = true → d.session.acceptedPluginInventory = some inventory
  | _ => True

instance LoadsLate.decidable (env : SessionEnv) (d : Desk) : ∀ act, Decidable (LoadsLate env d act)
  | .outside _ => .isTrue trivial
  | .event event _ =>
    match event with
    | .runtimeChanged => inferInstanceAs (Decidable (_ → _ → _))
    | .schemaResponse _ => inferInstanceAs (Decidable (_ → _ → _))
    | .inventory _ => inferInstanceAs (Decidable (_ → _ → _ → _ → _))
    | .catalogChanged | .policy _ | .summary _ | .capability _ | .acknowledgement _
    | .pauseNotice _ | .pauseAcknowledgement | .otherPlugin | .commandResult _ | .taskReport
    | .jobEvent | .other | .closed => .isTrue trivial

/-! ## 3. The handlers -/

section Handlers

variable {env : SessionEnv} {turn : Turn} {d d' : Desk}

namespace Evaluated

variable {inventory : AgentPluginInventory}

theorem calm (hcalm : Calm d d') (h : Evaluated d) : Evaluated d' := by
  obtain ⟨revision, hsession⟩ := hcalm.session
  have hevaluated : evaluated d'.record = evaluated d.record :=
    hcalm.look fun e _ he => by cases e <;> first | rfl | cases he
  have hpanic : d'.record.any Entry.isPanic = d.record.any Entry.isPanic :=
    hcalm.look (f := (·.any Entry.isPanic)) fun e _ he => by cases e <;> first | rfl | cases he
  refine ⟨?_, ?_, hpanic.trans h.sane⟩
  · rw [hcalm.running, hsession, hevaluated]
    exact h.current
  · rw [hsession]
    exact h.ready

theorem reply (h : Evaluated d) (reply : Reply) : Evaluated (d.reply reply) :=
  h.calm (.reply d reply)

theorem stop (h : Evaluated d) : Evaluated d.stop := ⟨nofun, h.ready, h.sane⟩

/-- **An evaluation**, whatever becomes of the catalog. -/
theorem sendJobCatalog {force : Bool} {policy : AgentJobPolicySnapshot}
    {capability : AgentCapabilitySnapshot} {runtime : PluginRuntimeSnapshot}
    (hready : d.session.pluginRuntimeReady = true → d.session.sentPluginRuntime.isSome = true)
    (hsane : d.record.any Entry.isPanic = false) :
    Evaluated (d.sendJobCatalog env turn force policy capability inventory runtime).1 := by
  unfold Desk.sendJobCatalog
  dsimp only
  split
  · exact ⟨fun _ _ => rfl, hready, hsane⟩
  · rename_i catalog _
    have houtcome := deliver_outcome env turn
      ((d.log (.loadCatalog policy capability inventory)).log (.computedCatalog catalog)) force catalog
    generalize Desk.deliver _ _ _ _ _ = out at houtcome ⊢
    cases houtcome <;> exact ⟨fun _ _ => rfl, hready, hsane⟩

/-- What every handler does that evaluates: nothing is asked of the past. -/
theorem reevaluate {converged : Bool}
    (hready : d.session.pluginRuntimeReady = true → d.session.sentPluginRuntime.isSome = true)
    (hsane : d.record.any Entry.isPanic = false) : Evaluated (d.reevaluate env turn converged) := by
  unfold Desk.reevaluate
  split
  · rename_i hrequest
    refine ⟨fun _ hsome => ?_, hready, hsane⟩
    rw [hrequest] at hsome
    cases hsome
  · rename_i policy capability inventory hrequest
    split
    · rename_i hruntime
      have hsome := hready (request_eq_some hrequest).1
      rw [hruntime] at hsome
      cases hsome
    · rename_i runtime _
      have hsent : Evaluated (d.sendJobCatalog env turn d.session.forceReconcile policy capability
        inventory runtime).1 := sendJobCatalog hready hsane
      split
      · exact { hsent with }
      · exact hsent

/-- Without a runtime that is ready nothing can be evaluated. -/
theorem of_notReady (hnot : d.session.pluginRuntimeReady = false)
    (hsane : d.record.any Entry.isPanic = false) : Evaluated d := by
  refine ⟨fun _ hsome => ?_, fun hready => ?_, hsane⟩
  · obtain ⟨⟨policy, capability, inventory⟩, hrequest⟩ := Option.isSome_iff_exists.mp hsome
    exact nomatch hnot.symm.trans (request_eq_some hrequest).1
  · exact nomatch hnot.symm.trans hready

theorem introduced_of_request {s : BusinessSession} (h : s.request.isSome = true) :
    introduced s = true := by
  obtain ⟨⟨policy, capability, inventory⟩, hrequest⟩ := Option.isSome_iff_exists.mp h
  obtain ⟨-, hpolicy, hcapability, -⟩ := request_eq_some hrequest
  unfold introduced
  rw [hpolicy, hcapability]
  rfl

/-- **The runtime is loaded**: it is not ready, or the condition excludes it. -/
theorem runtime (h : Evaluated d) (hok : introduced d.session = true → RuntimeUnnamed env d)
    (hloaded : RuntimeLoaded env d inventory d') : Evaluated d' := by
  cases hloaded with
  | unavailable => exact { h with }
  | named pauses snapshot summary hrevision hforce hheld hnames =>
    refine ⟨fun _ hsome => ?_, fun _ => rfl, h.sane⟩
    have hnamed : summary.runtimeRevision = snapshot.revision :=
      of_decide_eq_true (Bool.and_eq_true_iff.mp hnames).1
    rcases hok (introduced_of_request hsome :) with htrue | hother
    · exact nomatch hforce.symm.trans htrue
    · exact absurd (hnamed.trans hrevision) (hother summary hheld)
  | sent => exact of_notReady rfl h.sane

theorem onRuntimeChanged (h : Evaluated d) (hok : LoadsLate env d (.event .runtimeChanged turn)) :
    Evaluated (d.onRuntimeChanged env turn) := by
  unfold Desk.onRuntimeChanged
  split
  · exact h
  · rename_i inventory hinventory
    have hreset : Evaluated d.resetRuntime := of_notReady rfl h.sane
    exact hreset.runtime (hok (by rw [hinventory]; nofun))
      (sendPluginRuntimeSnapshot_outcome env turn d.resetRuntime inventory)

/-- The policy accepted once more changes nothing. -/
theorem onPolicy (h : Evaluated d) (hlinked : Linked d)
    (snapshot : Option AgentJobPolicySnapshot) : Evaluated (d.onPolicy env turn snapshot) := by
  unfold Desk.onPolicy
  split
  · exact h.reply _
  · rename_i policy
    split
    · exact h.reply _
    · split
      · exact h.reply _
      · split
        · rename_i hsame
          have hlast : lastPolicy d.record = some policy := hlinked.policy.symm.trans hsame
          have haccepted : Evaluated (d.acceptPolicy policy) := by
            refine ⟨fun hrunning hsome => ?_, h.ready, h.sane⟩
            refine Bool.and_eq_true_iff.mpr ⟨decide_eq_true hlast, h.current hrunning ?_⟩
            rw [show d.session.request = (d.acceptPolicy policy).session.request from ?_]
            · exact hsome
            · show d.session.request = request { d.session with
                acceptedPolicy := some policy, reconcileSummary := _ }
              rw [← hsame]
              rfl
          exact haccepted.reply _
        · exact reevaluate h.ready h.sane

theorem onCapability (h : Evaluated d) (snapshot : Option AgentCapabilitySnapshot) :
    Evaluated (d.onCapability env turn snapshot) := by
  unfold Desk.onCapability
  split
  · exact h.reply _
  · split
    · exact h.reply _
    · split
      · exact reevaluate h.ready h.sane
      · exact h.stop

/-- An inventory that fails its check. -/
theorem unchecked (h : Evaluated d) (hlinked : Linked d)
    (hok : introduced d.session = true → d.session.pluginRuntimeReady = true →
      d.session.acceptedPluginInventory = some inventory) :
    Evaluated (d.acceptInventory inventory) := by
  refine ⟨fun hrunning hsome => ?_, h.ready, h.sane⟩
  have hready : d.session.pluginRuntimeReady = true := by
    obtain ⟨⟨policy, capability, accepted⟩, hrequest⟩ := Option.isSome_iff_exists.mp hsome
    exact (request_eq_some hrequest).1
  have hsame := hok (introduced_of_request hsome :) hready
  have hlast : lastInventory d.record = some inventory := hlinked.inventory.symm.trans hsame
  refine Bool.and_eq_true_iff.mpr ⟨decide_eq_true hlast, h.current hrunning ?_⟩
  have hrequest : (d.acceptInventory inventory).session.request = d.session.request := by
    show request { d.session with acceptedPluginInventory := some inventory } = _
    rw [← hsame]
  rwa [hrequest] at hsome

theorem onInventory (h : Evaluated d) (hlinked : Linked d)
    (hok : LoadsLate env d (.event (.inventory inventory) turn)) :
    Evaluated (d.onInventory env turn inventory) := by
  unfold Desk.onInventory
  split
  · exact h.reply _
  · rename_i hvalid
    split
    · split
      · rename_i hmissing
        refine Evaluated.reply (h.unchecked hlinked (hok hvalid ?_)) _
        rw [hmissing]
        rfl
      · -- the runtime is loaded, and then the catalog is evaluated
        have hloaded := sendPluginRuntimeSnapshot_outcome env turn
          ((d.acceptInventory inventory).checkInventory inventory []) inventory
        generalize Desk.sendPluginRuntimeSnapshot env turn _ inventory = d' at hloaded ⊢
        cases hloaded with
        | unavailable | sent => exact reevaluate nofun h.sane
        | named => exact reevaluate (fun _ => rfl) h.sane
      · rename_i hash missing _
        have hreset : Evaluated
            ((d.acceptInventory inventory).checkInventory inventory (hash :: missing)) :=
          of_notReady rfl h.sane
        exact hreset.reply _
    · exact ⟨nofun, h.ready, h.sane⟩

/-- The schema that came was the only one pending. -/
theorem last_pending {pending : List (List UInt8)} {hash : List UInt8} {index : Nat}
    (hfound : pending.findIdx? (· = hash) = some index)
    (hnone : Desk.swapRemove pending index = []) : pending = [hash] := by
  obtain ⟨hindex, hhash, -⟩ := List.findIdx?_eq_some_iff_getElem.mp hfound
  have hlength : pending.length ≤ 1 := by
    unfold Desk.swapRemove at hnone
    split at hnone
    · rename_i hempty
      rw [List.getLast?_eq_none_iff] at hempty
      rw [hempty]
      exact Nat.zero_le 1
    · have hshort : pending.dropLast.length = 0 := by
        split at hnone
        · rw [hnone]
          rfl
        · rw [← length_set, hnone]
          rfl
      rw [length_dropLast] at hshort
      omega
  cases pending with
  | nil => exact absurd hindex (Nat.not_lt_zero index)
  | cons first rest =>
    rw [length_cons] at hlength hindex
    obtain rfl : rest = [] := eq_nil_of_length_eq_zero (by omega)
    obtain rfl : index = 0 := by rw [length_nil] at hindex; omega
    exact congrArg (fun hash => [hash]) (of_decide_eq_true hhash)

section

variable (h : Evaluated d)
include h

theorem onSchemaResponse {response : PluginSchemaResponse}
    (hok : LoadsLate env d (.event (.schemaResponse response) turn)) :
    Evaluated (d.onSchemaResponse env turn response) := by
  unfold Desk.onSchemaResponse
  split
  · exact h.reply _
  · rename_i inventory _
    split
    · exact h.reply _
    · rename_i index hindex
      split
      · exact h.reply _
      · rename_i schema _
        split
        · have hstored : ∀ pending, Evaluated { d with
              world := { d.world with
                schemas := d.world.schemas.insert response.schemaHash schema }
              session := { d.session with pendingSchemaHashes := pending } } := fun pending =>
            { h with }
          dsimp only
          split
          · rename_i hnone
            have hlast := hok (last_pending hindex hnone)
            exact (hstored (Desk.swapRemove d.session.pendingSchemaHashes index)).runtime hlast
              (sendPluginRuntimeSnapshot_outcome env turn _ inventory)
          · exact hstored _
        · exact h.reply _

theorem onAcknowledgement (ack : AgentPluginAck) :
    Evaluated (d.onAcknowledgement env turn ack) := by
  unfold Desk.onAcknowledgement
  split
  · exact h.reply _
  · rename_i sent hsent
    split
    · exact h.reply _
    · split
      · refine reevaluate (fun _ => ?_) h.sane
        rw [show (d.acknowledge sent).session.sentPluginRuntime = some sent from hsent]
        rfl
      · exact h

theorem onPauseNotice (notice : PluginPauseNotice) :
    Evaluated (d.onPauseNotice env turn notice) := by
  unfold Desk.onPauseNotice
  split
  · split
    · exact h.reply _
    · rename_i pauses _
      have hresent : Evaluated
          (({ d with world := { d.world with pauses := pauses } } : Desk).withoutPaused env turn) := by
        unfold Desk.withoutPaused Desk.sendReplaceAll
        split
        · exact { h with }
        · split
          · exact { h with }
          · exact ⟨nofun, h.ready, h.sane⟩
      dsimp only
      split
      · exact hresent.reply _
      · exact hresent
  · exact h.reply _

theorem onCommandResult (result : ReceivedCommandResult) :
    Evaluated (d.onCommandResult env turn result) := by
  unfold Desk.onCommandResult
  split
  · exact h.calm (.resync d none)
  · split
    · unfold Desk.resynchronize
      split
      · rename_i policy capability inventory runtime _ _
        have hsent : Evaluated (d.sendJobCatalog env turn true policy capability inventory runtime).1 :=
          sendJobCatalog h.ready h.sane
        dsimp only
        split
        · exact hsent.calm (.resync _ _)
        · exact hsent
      · exact h
    · exact h

theorem onSummary (summary : AgentReconcileSummary) :
    Evaluated (d.onSummary env summary) := by
  unfold Desk.onSummary
  split <;> exact { h with }

/-- **One iteration.** -/
theorem handle (hlinked : Linked d) {event : Event} (hok : LoadsLate env d (.event event turn)) :
    Evaluated (d.handle env turn event) := by
  have hreceived : Evaluated (d.log (.received event)) := { h with }
  unfold Desk.handle
  cases event with
  | catalogChanged => exact reevaluate h.ready h.sane
  | runtimeChanged => exact hreceived.onRuntimeChanged hok
  | policy snapshot => exact hreceived.onPolicy (hlinked.received nofun) snapshot
  | summary summary => exact hreceived.onSummary summary
  | capability snapshot => exact hreceived.onCapability snapshot
  | inventory => exact hreceived.onInventory (hlinked.received nofun) hok
  | schemaResponse => exact hreceived.onSchemaResponse hok
  | acknowledgement ack => exact hreceived.onAcknowledgement ack
  | pauseNotice notice => exact hreceived.onPauseNotice notice
  | pauseAcknowledgement | otherPlugin | other => exact hreceived.reply _
  | commandResult result => exact hreceived.onCommandResult result
  | taskReport | jobEvent =>
    dsimp only
    split
    · exact hreceived
    · exact hreceived.stop
  | closed => exact hreceived.stop

theorem step (hlinked : Linked d) {act : Act} (hok : LoadsLate env d act) :
    Evaluated (step env d act) := by
  cases act with
  | outside => exact { h with }
  | event event turn =>
    show Evaluated (if d.running = true then d.handle env turn event else d)
    split
    · exact h.handle hlinked hok
    · exact h

end

end Evaluated

end Handlers

/-! ## 4. Runs -/

/-- **In every state of a run that keeps to the condition, the catalog has been evaluated if it can
    be**, a runtime that is ready has been loaded, and no `expect` has failed. -/
theorem catalog_evaluated (env : SessionEnv) (world : World) (acts : List Act)
    (h : Along (step env) (LoadsLate env) (.start world) acts) :
    Throughout (step env) Evaluated (.start world) acts := by
  have hstep : ∀ d act, Linked d ∧ Evaluated d → LoadsLate env d act →
      Linked (step env d act) ∧ Evaluated (step env d act) := fun d act hinv hok =>
    ⟨hinv.1.step env act, hinv.2.step hinv.1 hok⟩
  have hstart : Linked (.start world) ∧ Evaluated (.start world) :=
    ⟨.start world, nofun, nofun, rfl⟩
  exact throughout_of_invariant hstep (fun _ hinv => hinv.2) hstart h

/-- Policy and capability come after the runtime has been acknowledged. -/
def signOnLate : List Act :=
  [plainly 1 (.inventory echoInstalled), plainly 2 (.acknowledgement ⟨2, true⟩),
    plainly 3 (.policy (some allowing)), plainly 4 (.capability (some collecting))]

theorem late_sign_on_evaluated :
    let d := run (step echoAgent) (.start echoWorld) signOnLate
    d.session.request.isSome = true ∧
      Throughout (step echoAgent) Evaluated (.start echoWorld) signOnLate :=
  ⟨by decide +kernel, catalog_evaluated echoAgent echoWorld _ (by decide +kernel)⟩

/-- The Agent's summary, with the runtime stored. -/
def echoSummary : AgentReconcileSummary :=
  ⟨List.replicate 16 1, 0, [], 2, List.replicate 30 0 ++ [2, 1]⟩

/-- The Agent has been seen before, and its schema is missing. -/
def schemaMissing : World :=
  { echoWorld with
    schemas := .empty
    instances := Table.empty.insert "agent-1" (List.replicate 16 1) }

/-- **The last schema comes, and the runtime is ready without an evaluation.** -/
theorem ready_without_evaluation :
    let acts := [plainly 1 (.policy (some allowing)), plainly 2 (.capability (some collecting)),
      plainly 3 (.summary echoSummary), plainly 4 (.inventory echoInstalled),
      plainly 5 (.schemaResponse ⟨List.replicate 32 0, []⟩)]
    let d := run (step echoAgent) (.start schemaMissing) acts
    d.running = true ∧ d.session.request.isSome = true ∧
      d.record.any (fun e => e matches .loadCatalog _ _ _) = false ∧ ¬ Evaluated d := by
  decide +kernel

end Smalux.Session
