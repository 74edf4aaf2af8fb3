/-
  Subject:   Reading the record of a session, and one rule for its iterations.

  What was accepted, acknowledged, sent or reported last is read off the record. The loop's variables
  agree with it (`Linked`). Most of what an iteration does changes nothing that matters (`Calm`); what
  is left is one line each in `HandleRule`: a property that survives these is kept by every iteration.

  * `Delivered`, `deliver_outcome` -- what becomes of a computed catalog;
  * `RuntimeLoaded`, `sendPluginRuntimeSnapshot_outcome` -- what becomes of a runtime;
  * **`HandleRule.handle`** -- the rule; `Linked.run` -- the variables and the record.
-/
import Smalux.Session.Loop

namespace Smalux.Session

open Lib Server Proto

section

variable (record : List Entry)

/-! ## 1. The record -/

/-- The policy accepted last. -/
def lastPolicy : Option AgentJobPolicySnapshot :=
  record.findSome? fun
    | .acceptedPolicy policy => some policy
    | _ => none

def lastCapability : Option AgentCapabilitySnapshot :=
  record.findSome? fun
    | .acceptedCapability capability => some capability
    | _ => none

def lastInventory : Option AgentPluginInventory :=
  record.findSome? fun
    | .acceptedInventory inventory => some inventory
    | _ => none

/-- The runtime the Agent has acknowledged last, or named as its own. -/
def lastRuntime : Option PluginRuntimeSnapshot :=
  record.findSome? fun
    | .runtimeReady snapshot => some snapshot
    | _ => none

/-- The summary received last, valid or not. -/
def lastSummary : Option AgentReconcileSummary :=
  record.findSome? fun
    | .received (.summary summary) => some summary
    | _ => none

/-- The catalog sent last, with the id of the command. -/
def lastReplaceAll : Option (List UInt8 × ReplaceAllJobs) :=
  record.findSome? fun
    | .replaceAll commandId catalog _ => some (commandId, catalog)
    | _ => none

/-- An answer, or a message that is neither a summary nor the result of a command. -/
def Entry.quiet : Entry → Bool
  | .sent _ => true
  | .received (.summary _) => false
  | .received (.commandResult _) => false
  | .received _ => true
  | _ => false

/-! ## 2. What changes little -/

/-- Between the two only answers are sent, and of the variables only the revision of the last
    resynchronization may change. -/
structure Calm (d d' : Desk) : Prop where
  world : d'.world = d.world
  running : d'.running = d.running
  session : ∃ revision, d'.session = { d.session with resyncRequestedRevision := revision }
  record : ∃ entries : List Entry, (∀ e ∈ entries, e.quiet = true) ∧ d'.record = entries ++ d.record

end

namespace Calm

variable {d d' : Desk}

theorem reply (d : Desk) (reply : Reply) : Calm d (d.reply reply) :=
  ⟨rfl, rfl, ⟨_, rfl⟩, ⟨[.sent reply], fun _ h => List.mem_singleton.mp h ▸ rfl, rfl⟩⟩

theorem resync (d : Desk) (revision : Option Nat) :
    Calm d (d.update fun s => { s with resyncRequestedRevision := revision }) :=
  ⟨rfl, rfl, ⟨_, rfl⟩, ⟨[], fun _ h => absurd h List.not_mem_nil, rfl⟩⟩

section

variable (h : Calm d d')
include h

/-- A look back that passes over the quiet entries. -/
theorem look {α : Type} {f : List Entry → α}
    (hf : ∀ e past, e.quiet = true → f (e :: past) = f past) : f d'.record = f d.record := by
  obtain ⟨entries, hquiet, hrecord⟩ := h.record
  rw [hrecord]
  clear hrecord
  induction entries with
  | nil => rfl
  | cons e rest ih =>
    have hrest := ih fun e' he' => hquiet e' (List.mem_cons_of_mem e he')
    exact (hf e _ (hquiet e List.mem_cons_self)).trans hrest

/-- What is true of quiet entries stays true of all. -/
theorem always {P : Entry → List Entry → Prop} (hq : ∀ e past, e.quiet = true → P e past)
    (hd : Always P d.record) : Always P d'.record := by
  obtain ⟨entries, hquiet, hrecord⟩ := h.record
  rw [hrecord]
  exact always_append (fun e he past => hq e past (hquiet e he)) hd

theorem lastPolicy : lastPolicy d'.record = lastPolicy d.record :=
  h.look fun e _ he => by cases e <;> first | rfl | cases he

theorem lastCapability : lastCapability d'.record = lastCapability d.record :=
  h.look fun e _ he => by cases e <;> first | rfl | cases he

theorem lastInventory : lastInventory d'.record = lastInventory d.record :=
  h.look fun e _ he => by cases e <;> first | rfl | cases he

theorem lastRuntime : lastRuntime d'.record = lastRuntime d.record :=
  h.look fun e _ he => by cases e <;> first | rfl | cases he

theorem lastReplaceAll : lastReplaceAll d'.record = lastReplaceAll d.record :=
  h.look fun e _ he => by cases e <;> first | rfl | cases he

theorem lastSummary : lastSummary d'.record = lastSummary d.record := by
  refine h.look fun e _ he => ?_
  cases e with
  | received event => cases event <;> first | rfl | cases he
  | _ => rfl

end

end Calm

/-- What is there once an evaluation can be made. -/
theorem BusinessSession.request_eq_some {s : BusinessSession} {policy : AgentJobPolicySnapshot}
    {capability : AgentCapabilitySnapshot} {inventory : AgentPluginInventory}
    (h : s.request = some (policy, capability, inventory)) :
    s.pluginRuntimeReady = true ∧ s.acceptedPolicy = some policy ∧
      s.acceptedCapability = some capability ∧ s.acceptedPluginInventory = some inventory := by
  unfold request at h
  split at h
  · rename_i hready
    split at h
    · rename_i hpolicy hcapability hinventory
      cases h
      exact ⟨hready, hpolicy, hcapability, hinventory⟩
    · cases h
  · cases h

/-! ## 3. What is sent -/

/-- What becomes of a computed catalog. -/
inductive Delivered (env : SessionEnv) (turn : Turn) (d : Desk) (force : Bool)
    (catalog : ReplaceAllJobs) : Desk × Bool → Prop where
  | already (hforce : force = false) (hsent : d.session.lastSentCatalog = some catalog) :
      Delivered env turn d force catalog (d.log (.skippedCatalog catalog), false)
  | named (hforce : force = false) (summary : AgentReconcileSummary)
      (hheld : d.session.reconcileSummary = some summary)
      (hnames : namesCatalog env catalog summary = true) :
      Delivered env turn d force catalog
        ((d.log (.skippedCatalog catalog)).update fun s =>
          { s with lastSentCatalog := some catalog }, false)
  | sent :
      Delivered env turn d force catalog
        ((d.log (.replaceAll turn.commandId catalog d.world.pauses)).update fun s =>
          { s with lastSentCatalog := some catalog }, true)
  | refused : Delivered env turn d force catalog (d.stop, false)

theorem deliver_outcome (env : SessionEnv) (turn : Turn) (d : Desk) (force : Bool)
    (catalog : ReplaceAllJobs) :
    Delivered env turn d force catalog (d.deliver env turn force catalog) := by
  unfold Desk.deliver
  split
  · rename_i hsent
    rw [Bool.and_eq_true, Bool.not_eq_true', decide_eq_true_eq] at hsent
    exact .already hsent.1 hsent.2
  · split
    · rename_i hnamed
      rw [Bool.and_eq_true, Bool.not_eq_true'] at hnamed
      obtain ⟨summary, hheld, hnames⟩ := Option.any_eq_true _ _ |>.mp hnamed.2
      exact .named hnamed.1 summary hheld hnames
    · unfold Desk.sendReplaceAll
      split
      · exact .sent
      · exact .refused

/-- What becomes of a runtime. -/
inductive RuntimeLoaded (env : SessionEnv) (d : Desk) (inventory : AgentPluginInventory) :
    Desk → Prop where
  | unavailable : RuntimeLoaded env d inventory (d.log (.loadRuntime inventory))
  | named (pauses : Pauses) (snapshot : PluginRuntimeSnapshot)
      (summary : AgentReconcileSummary)
      (hrevision : snapshot.revision = runtimeRevision d.world.runtimes env.agentId)
      (hforce : d.session.forceReconcile = false)
      (hheld : d.session.reconcileSummary = some summary)
      (hnames : Desk.namesRuntime env snapshot summary = true) :
      RuntimeLoaded env d inventory {
        world := { d.world with pauses := pauses }
        session := { d.session with
          sentPluginRuntime := some snapshot, pluginRuntimeReady := true }
        record := .runtimeReady snapshot :: .loadRuntime inventory :: d.record
        running := d.running }
  | sent (pauses : Pauses) (snapshot : PluginRuntimeSnapshot) :
      RuntimeLoaded env d inventory {
        world := { d.world with pauses := pauses }
        session := { d.session with
          sentPluginRuntime := some snapshot, pluginRuntimeReady := false }
        record := .runtimeSnapshot snapshot d.session.pendingSchemaHashes ::
          .loadRuntime inventory :: d.record
        running := d.running }

theorem loadAgentPluginRuntime_revision (d : RuntimeTables) (agentId : String)
    (inventory : AgentPluginInventory) :
    (loadAgentPluginRuntime d agentId inventory).revision = runtimeRevision d agentId := by
  unfold loadAgentPluginRuntime runtimeRevision
  cases d.catalogs.get agentId <;> rfl

theorem sendPluginRuntimeSnapshot_outcome (env : SessionEnv) (turn : Turn) (d : Desk)
    (inventory : AgentPluginInventory) :
    RuntimeLoaded env d inventory (d.sendPluginRuntimeSnapshot env turn inventory) := by
  unfold Desk.sendPluginRuntimeSnapshot
  split
  · dsimp only [Desk.log, Desk.update]
    split
    · rename_i hnamed
      rw [hnamed]
      rw [Bool.and_eq_true, Bool.not_eq_true'] at hnamed
      obtain ⟨summary, hheld, hnames⟩ := Option.any_eq_true _ _ |>.mp hnamed.2
      exact .named _ _ summary (loadAgentPluginRuntime_revision ..) hnamed.1 hheld hnames
    · rename_i hother
      rw [Bool.not_eq_true] at hother
      rw [hother]
      exact .sent _ _
  · exact .unavailable

/-! ## 4. The rule -/

/-- The events that may evaluate the catalog without force. -/
def Event.evaluates : Event → Bool
  | .catalogChanged | .policy _ | .capability _ | .inventory _ | .acknowledgement _ => true
  | _ => false

def Event.isPolicy : Event → Bool
  | .policy _ => true
  | _ => false

/-- The events that may load the runtime. -/
def Event.loadsRuntime : Event → Bool
  | .runtimeChanged | .inventory _ | .schemaResponse _ => true
  | _ => false

/-- What an unforced evaluation knows: the event, and that a new policy has made the summary
    worthless. -/
structure Unforced (event : Event) (s : BusinessSession) : Prop where
  evaluates : event.evaluates = true
  force : s.forceReconcile = false
  policy : event.isPolicy = true → s.reconcileSummary = none

/-- What has to be shown of a property: `P` holds until the catalog is evaluated, `Q` afterwards. -/
structure HandleRule (env : SessionEnv) (turn : Turn) (event : Event) (P Q : Desk → Prop) :
    Prop where
  calm : ∀ {d d'}, Calm d d' → P d → P d'
  calmAfter : ∀ {d d'}, Calm d d' → Q d → Q d'
  done : ∀ {d}, P d → Q d
  stop : ∀ {d}, P d → Q d.stop
  converged : ∀ {d}, Q d → Q (d.update fun s => { s with forceReconcile := false })
  policy : ∀ {d} policy, event = .policy (some policy) → P d → P (d.acceptPolicy policy)
  capability : ∀ {d} capability, event = .capability (some capability) →
    P d → P (d.acceptCapability capability)
  /-- an inventory whose schemas are checked, and one whose schemas are not those stored -/
  inventory : ∀ {d} inventory missing, event = .inventory inventory →
    validatePluginInventory inventory = .ok () →
    P d → P ((d.acceptInventory inventory).checkInventory inventory missing)
  unchecked : ∀ {d} inventory reason, event = .inventory inventory →
    validatePluginInventory inventory = .ok () →
    d.missingSchemas turn inventory = .error reason → P d → P (d.acceptInventory inventory)
  unsaved : ∀ {d} inventory, P d → Q (d.acceptInventory inventory).stop
  schema : ∀ {d} response schemas pending, event = .schemaResponse response → P d →
    P { d with
      world := { d.world with schemas := schemas }
      session := { d.session with pendingSchemaHashes := pending } }
  reset : ∀ {d}, event = .runtimeChanged → P d → P d.resetRuntime
  runtime : ∀ {d d'} inventory, event.loadsRuntime = true →
    d.session.acceptedPluginInventory = some inventory →
    event = .runtimeChanged ∨ d.session.pendingSchemaHashes = [] →
    RuntimeLoaded env d inventory d' → P d → P d'
  acknowledged : ∀ {d} ack runtime, event = .acknowledgement ack →
    d.session.sentPluginRuntime = some runtime → P d → P (d.acknowledge runtime)
  panic : ∀ {d}, d.session.pluginRuntimeReady = true → d.session.sentPluginRuntime = none →
    P d → Q d.panic
  unavailable : ∀ {d} policy capability inventory,
    d.session.request = some (policy, capability, inventory) →
    P d → Q (d.log (.loadCatalog policy capability inventory))
  deliver : ∀ {d out} force policy capability inventory runtime catalog,
    d.session.request = some (policy, capability, inventory) →
    d.session.sentPluginRuntime = some runtime →
    (force = false → Unforced event d.session) →
    sessionCatalog env.agentId policy capability inventory runtime d.world.pauses
      d.world.jobs.tables = some catalog →
    Delivered env turn
      ((d.log (.loadCatalog policy capability inventory)).log (.computedCatalog catalog)) force
      catalog out → P d → Q out.1
  paused : ∀ {d} notice pauses, event = .pauseNotice notice → P d →
    P { d with world := { d.world with pauses := pauses } }
  resend : ∀ {d} notice catalog, event = .pauseNotice notice →
    Desk.validPause d.session notice = true → d.session.lastSentCatalog = some catalog →
    P d → Q ((d.log (.replaceAll turn.commandId
      (d.world.pauses.filterCatalog env.agentId catalog) d.world.pauses)).update fun s =>
        { s with lastSentCatalog := some (d.world.pauses.filterCatalog env.agentId catalog) })

namespace HandleRule

variable {env : SessionEnv} {turn : Turn} {event : Event} {P Q : Desk → Prop} {d : Desk}

section

variable (h : HandleRule env turn event P Q) (hd : P d)
include h hd

theorem reply (reply : Reply) : P (d.reply reply) := h.calm (.reply d reply) hd

theorem invalid (text : String) : Q (d.invalidMessage text) := h.done (h.reply hd _)

theorem sendJobCatalog {force : Bool} {policy : AgentJobPolicySnapshot}
    {capability : AgentCapabilitySnapshot} {inventory : AgentPluginInventory}
    {runtime : PluginRuntimeSnapshot}
    (hrequest : d.session.request = some (policy, capability, inventory))
    (hruntime : d.session.sentPluginRuntime = some runtime)
    (hforce : force = false → Unforced event d.session) :
    Q (d.sendJobCatalog env turn force policy capability inventory runtime).1 := by
  unfold Desk.sendJobCatalog
  dsimp only
  split
  · exact h.unavailable policy capability inventory hrequest hd
  · rename_i catalog hcomputed
    split at hcomputed
    · exact h.deliver force policy capability inventory runtime catalog hrequest hruntime hforce
        hcomputed (deliver_outcome env turn _ force catalog) hd
    · cases hcomputed

theorem reevaluate (hevent : event.evaluates = true)
    (hpolicy : event.isPolicy = true → d.session.reconcileSummary = none) (converged : Bool) :
    Q (d.reevaluate env turn converged) := by
  unfold Desk.reevaluate
  split
  · exact h.done hd
  · rename_i policy capability inventory hrequest
    split
    · rename_i hruntime
      exact h.panic (BusinessSession.request_eq_some hrequest).1 hruntime hd
    · rename_i runtime hruntime
      have hsent := h.sendJobCatalog hd hrequest hruntime fun hforce => ⟨hevent, hforce, hpolicy⟩
      split
      · exact h.converged hsent
      · exact hsent

theorem reevaluateOther (hevent : event.evaluates = true ∧ event.isPolicy = false)
    (converged : Bool) : Q (d.reevaluate env turn converged) :=
  h.reevaluate hd hevent.1 (fun hpolicy => absurd hpolicy (by rw [hevent.2]; nofun)) converged

theorem onPolicy (snapshot : Option AgentJobPolicySnapshot)
    (hevent : event = .policy snapshot) : Q (d.onPolicy env turn snapshot) := by
  have hevaluates : event.evaluates = true := by rw [hevent]; rfl
  unfold Desk.onPolicy
  split
  · exact h.invalid hd _
  · rename_i policy
    split
    · exact h.done (h.reply hd _)
    · split
      · exact h.invalid hd _
      · have haccepted :=
          h.reply (h.policy policy hevent hd) (.policyAcknowledgement policy.revision)
        split
        · exact h.done haccepted
        · rename_i hnew
          exact h.reevaluate haccepted hevaluates (fun _ => if_neg hnew) false

theorem onCapability (snapshot : Option AgentCapabilitySnapshot)
    (hevent : event = .capability snapshot) : Q (d.onCapability env turn snapshot) := by
  have hother : event.evaluates = true ∧ event.isPolicy = false := by rw [hevent]; exact ⟨rfl, rfl⟩
  unfold Desk.onCapability
  split
  · exact h.invalid hd _
  · split
    · exact h.invalid hd _
    · split
      · exact h.reevaluateOther (h.capability _ hevent hd) hother false
      · exact h.stop hd

theorem onInventory (inventory : AgentPluginInventory)
    (hevent : event = .inventory inventory) : Q (d.onInventory env turn inventory) := by
  have hother : event.evaluates = true ∧ event.isPolicy = false := by rw [hevent]; exact ⟨rfl, rfl⟩
  unfold Desk.onInventory
  split
  · exact h.invalid hd _
  · rename_i hvalid
    split
    · split
      · rename_i reason hmissing
        exact h.invalid (h.unchecked inventory reason hevent hvalid hmissing hd) _
      · refine h.reevaluateOther ?_ hother true
        exact h.runtime inventory (by rw [hevent]; rfl) rfl (.inr rfl)
          (sendPluginRuntimeSnapshot_outcome env turn _ inventory)
          (h.inventory inventory [] hevent hvalid hd)
      · exact h.done (h.reply (h.inventory inventory _ hevent hvalid hd) _)
    · exact h.unsaved inventory hd

theorem onSchemaResponse (response : PluginSchemaResponse)
    (hevent : event = .schemaResponse response) : Q (d.onSchemaResponse env turn response) := by
  unfold Desk.onSchemaResponse
  split
  · exact h.invalid hd _
  · rename_i inventory hinventory
    split
    · exact h.invalid hd _
    · split
      · exact h.invalid hd _
      · rename_i schema _
        split
        · have hstored := fun pending => h.schema response
            (d.world.schemas.insert response.schemaHash schema) pending hevent hd
          dsimp only
          split
          · rename_i hnone
            refine h.done (h.runtime inventory ?_ ?_ (.inr ?_)
              (sendPluginRuntimeSnapshot_outcome env turn _ inventory) (hstored _))
            · rw [hevent]
              rfl
            · exact hinventory
            · exact hnone
          · exact h.done (hstored _)
        · exact h.invalid hd _

theorem onAcknowledgement (ack : AgentPluginAck) (hevent : event = .acknowledgement ack) :
    Q (d.onAcknowledgement env turn ack) := by
  have hother : event.evaluates = true ∧ event.isPolicy = false := by rw [hevent]; exact ⟨rfl, rfl⟩
  unfold Desk.onAcknowledgement
  split
  · exact h.invalid hd _
  · rename_i runtime hruntime
    split
    · exact h.invalid hd _
    · split
      · exact h.reevaluateOther (h.acknowledged ack runtime hevent hruntime hd) hother true
      · exact h.done hd

theorem onPauseNotice (notice : PluginPauseNotice) (hevent : event = .pauseNotice notice) :
    Q (d.onPauseNotice env turn notice) := by
  unfold Desk.onPauseNotice
  split
  · rename_i hvalid
    split
    · exact h.done (h.reply hd _)
    · rename_i pauses _
      have hpaused := h.paused notice pauses hevent hd
      have hresent : Q (({ d with world := { d.world with pauses := pauses } } : Desk).withoutPaused
          env turn) := by
        unfold Desk.withoutPaused
        split
        · exact h.done hpaused
        · rename_i catalog hlast
          unfold Desk.sendReplaceAll
          split
          · exact h.resend notice catalog hevent hvalid hlast hpaused
          · exact h.stop hpaused
      dsimp only
      split
      · exact h.calmAfter (.reply _ _) hresent
      · exact hresent
  · exact h.done (h.reply hd _)

theorem onCommandResult (result : ReceivedCommandResult) :
    Q (d.onCommandResult env turn result) := by
  unfold Desk.onCommandResult
  split
  · exact h.done (h.calm (.resync d none) hd)
  · split
    · unfold Desk.resynchronize
      split
      · rename_i hrequest hruntime
        have hforce : true = false → Unforced event d.session := nofun
        have hsent := h.sendJobCatalog hd hrequest hruntime hforce
        dsimp only
        split
        · exact h.calmAfter (.resync _ _) hsent
        · exact hsent
      · exact h.done hd
    · exact h.done hd

end

/-- **The rule.** Summaries are left to the property. -/
theorem handle (h : HandleRule env turn event P Q) (hsummary : ∀ summary, event = .summary summary →
      Q ((d.log (.received event)).onSummary env summary))
    (hd : (∀ summary, event ≠ .summary summary) → P (d.log (.received event))) :
    Q (d.handle env turn event) := by
  by_cases hevent : ∃ summary, event = .summary summary
  · obtain ⟨summary, rfl⟩ := hevent
    exact hsummary summary rfl
  replace hd := hd fun summary heq => hevent ⟨summary, heq⟩
  unfold Desk.handle
  dsimp only
  split
  · exact h.reevaluateOther (h.calm (.resync _ none) hd) ⟨rfl, rfl⟩ true
  · unfold Desk.onRuntimeChanged
    split
    · exact h.done hd
    · rename_i inventory hinventory
      refine h.done (h.runtime inventory rfl ?_ (.inl rfl)
        (sendPluginRuntimeSnapshot_outcome env turn _ inventory) (h.reset rfl hd))
      exact hinventory
  · exact h.onPolicy hd _ rfl
  · exact absurd ⟨_, rfl⟩ hevent
  · exact h.onCapability hd _ rfl
  · exact h.onInventory hd _ rfl
  · exact h.onSchemaResponse hd _ rfl
  · exact h.onAcknowledgement hd _ rfl
  · exact h.onPauseNotice hd _ rfl
  · exact h.invalid hd _
  · exact h.invalid hd _
  · exact h.onCommandResult hd _
  · split
    · exact h.done hd
    · exact h.stop hd
  · split
    · exact h.done hd
    · exact h.stop hd
  · exact h.invalid hd _
  · exact h.stop hd

end HandleRule

/-! ## 5. The variables and the record -/

/-- The variables say what the record says. -/
structure Linked (d : Desk) : Prop where
  policy : d.session.acceptedPolicy = lastPolicy d.record
  capability : d.session.acceptedCapability = lastCapability d.record
  inventory : d.session.acceptedPluginInventory = lastInventory d.record
  runtime : d.session.pluginRuntimeReady = true → ∃ runtime,
    d.session.sentPluginRuntime = some runtime ∧ lastRuntime d.record = some runtime
  summary : ∀ summary, d.session.reconcileSummary = some summary →
    lastSummary d.record = some summary

namespace Linked

variable {d d' : Desk}

theorem calm (hcalm : Calm d d') (h : Linked d) : Linked d' := by
  obtain ⟨revision, hsession⟩ := hcalm.session
  refine ⟨?_, ?_, ?_, ?_, ?_⟩
  · rw [hsession, hcalm.lastPolicy]
    exact h.policy
  · rw [hsession, hcalm.lastCapability]
    exact h.capability
  · rw [hsession, hcalm.lastInventory]
    exact h.inventory
  · rw [hsession, hcalm.lastRuntime]
    exact h.runtime
  · rw [hsession, hcalm.lastSummary]
    exact h.summary

theorem start (world : World) : Linked (.start world) :=
  ⟨rfl, rfl, rfl, nofun, nofun⟩

/-- A new policy makes the session forget the summary, it never brings one. -/
theorem held_of_acceptPolicy {policy : AgentJobPolicySnapshot}
    {summary : AgentReconcileSummary}
    (h : (d.acceptPolicy policy).session.reconcileSummary = some summary) :
    d.session.reconcileSummary = some summary := by
  by_cases hsame : d.session.acceptedPolicy = some policy
  · rwa [show (d.acceptPolicy policy).session.reconcileSummary = _ from if_pos hsame] at h
  · rw [show (d.acceptPolicy policy).session.reconcileSummary = _ from if_neg hsame] at h
    cases h

theorem rule (env : SessionEnv) (turn : Turn) (event : Event) :
    HandleRule env turn event Linked Linked where
  calm := calm
  calmAfter := calm
  done := fun h => h
  stop := fun h => { h with }
  converged := fun h => { h with }
  policy := by
    intro d policy _ h
    exact { h with
      policy := rfl
      summary := fun summary hheld => h.summary summary (held_of_acceptPolicy hheld) }
  capability := fun _ _ h => { h with capability := rfl }
  inventory := fun _ _ _ _ h => { h with inventory := rfl, runtime := nofun }
  unchecked := fun _ _ _ _ _ h => { h with inventory := rfl }
  unsaved := fun _ h => { h with inventory := rfl }
  schema := fun _ _ _ _ h => { h with }
  reset := fun _ h => { h with runtime := nofun }
  runtime := by
    intro d d' inventory _ _ _ hloaded h
    cases hloaded with
    | unavailable => exact { h with }
    | named pauses snapshot =>
      exact { h with runtime := fun _ => ⟨snapshot, rfl, rfl⟩ }
    | sent => exact { h with runtime := nofun }
  acknowledged := fun _ runtime _ hruntime h => { h with runtime := fun _ => ⟨runtime, hruntime, rfl⟩ }
  panic := fun _ _ h => { h with }
  unavailable := fun _ _ _ _ h => { h with }
  deliver := by
    intro d out force policy capability inventory runtime catalog _ _ _ _ hdelivered h
    cases hdelivered <;> exact { h with }
  paused := fun _ _ _ h => { h with }
  resend := fun _ _ _ _ _ h => { h with }

/-- A message that is no summary. -/
theorem received (h : Linked d) {event : Event} (hevent : ∀ summary, event ≠ .summary summary) :
    Linked (d.log (.received event)) := by
  refine { h with summary := fun summary hheld => ?_ }
  rw [← h.summary summary hheld]
  cases event with
  | summary summary' => exact absurd rfl (hevent summary')
  | _ => rfl

theorem onSummary (h : Linked d) (env : SessionEnv) (summary : AgentReconcileSummary) :
    Linked ((d.log (.received (.summary summary))).onSummary env summary) := by
  unfold Desk.onSummary
  split
  · exact { h with summary := nofun }
  · refine { h with summary := fun held hheld => ?_ }
    rw [← hheld]
    rfl

theorem step (h : Linked d) (env : SessionEnv) (act : Act) : Linked (step env d act) := by
  cases act with
  | outside => exact { h with }
  | event event turn =>
    show Linked (if d.running = true then d.handle env turn event else d)
    split
    · refine (rule env turn event).handle ?_ h.received
      rintro summary rfl
      exact h.onSummary env summary
    · exact h

end Linked

end Smalux.Session
