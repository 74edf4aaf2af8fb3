/-
  Subject:   An Agent reconnects and nothing has changed.

  The summary the Agent sends names its runtime and its catalog, so that the Server need not send them
  again. But the first policy of a session counts as a new one and makes the session forget the
  summary; and the summary has to be there when the inventory comes. The Agent sends the summary first,
  then the policy.

  All orders of the four messages are followed on a machine of eight flags (`Progress`), which the
  session simulates (`Follows.run`); there are finitely many of them.

  * `Reconnects` -- nothing has changed;
  * **`nothing_transferred_iff`** -- then nothing is sent if and only if the policy comes before the
    summary and the summary before the inventory.
-/
import Mathlib.Data.List.Permutation
import Smalux.Session.Loop

namespace Smalux.Session

open Lib Server List

/-! ## 1. The Agent's messages -/

inductive Message where
  | summary | policy | capability | inventory
  deriving DecidableEq

/-- The order of the Agent's event loop. -/
def agentOrder : List Message := [.summary, .policy, .capability, .inventory]

/-- A runtime or a catalog has been sent. -/
def transfers (record : List Entry) : Bool :=
  record.any fun
    | .runtimeSnapshot _ _ => true
    | .replaceAll _ _ _ => true
    | _ => false

/-! ## 2. The flags -/

structure Progress where
  policy : Bool := false
  capability : Bool := false
  inventory : Bool := false
  /-- the summary is held -/
  held : Bool := false
  force : Bool := true
  ready : Bool := false
  /-- the catalog is remembered -/
  remembered : Bool := false
  transferred : Bool := false
  deriving DecidableEq

namespace Progress

/-- The catalog is evaluated, if that can be done. -/
def evaluate (converged : Bool) (a : Progress) : Progress :=
  if a.ready && a.policy && a.capability && a.inventory then
    { a with
      remembered := true
      transferred := a.transferred || a.force || !(a.remembered || a.held)
      force := a.force && !converged }
  else a

def next (a : Progress) : Message → Progress
  | .summary => { a with held := true, force := false }
  | .policy => if a.policy then a else evaluate false { a with policy := true, held := false }
  | .capability => evaluate false { a with capability := true }
  | .inventory =>
    let named := !a.force && a.held
    evaluate true
      { a with inventory := true, ready := named, transferred := a.transferred || !named }

/-- The inventory comes once. -/
def Once (a : Progress) (m : Message) : Prop := m = .inventory → a.inventory = false
  deriving Decidable

/-- **The orders that transfer nothing**: decided over all 24. -/
theorem orders : ∀ order ∈ agentOrder.permutations', Along next Once {} order ∧
      ((run next {} order).transferred = false ↔ order.idxOf .policy < order.idxOf .summary ∧
          order.idxOf .summary < order.idxOf .inventory) := by
  decide +kernel

/-- After such an order nothing that is said again transfers anything. -/
theorem settled : ∀ order ∈ agentOrder.permutations', (run next {} order).transferred = false →
      (run next {} order).next .policy = run next {} order ∧
        (run next {} order).next .capability = run next {} order := by
  decide +kernel

theorem evaluate_transferred {a : Progress} (h : a.transferred = true) (converged : Bool) :
    (a.evaluate converged).transferred = true := by
  unfold evaluate
  split
  · rw [h]
    rfl
  · exact h

theorem next_transferred {a : Progress} (h : a.transferred = true) (m : Message) :
    (a.next m).transferred = true := by
  cases m with
  | summary => exact h
  | policy =>
    show (if a.policy = true then a else _).transferred = true
    split
    · exact h
    · refine evaluate_transferred ?_ false
      exact h
  | capability =>
    refine evaluate_transferred ?_ false
    exact h
  | inventory =>
    refine evaluate_transferred ?_ true
    rw [h, Bool.true_or]

end Progress

/-! ## 3. Nothing has changed -/

/-- The runtime the Server loads. -/
def loadedRuntime (env : SessionEnv) (world : World) (inventory : Proto.AgentPluginInventory) :
    Proto.PluginRuntimeSnapshot :=
  loadAgentPluginRuntime world.runtimes env.agentId inventory

/-- The pauses once the runtime is loaded. -/
def pausesLeft (env : SessionEnv) (world : World) (inventory : Proto.AgentPluginInventory) : Pauses :=
  world.pauses.acknowledgeNewRuntime env.agentId (loadedRuntime env world inventory)

/-- An Agent whose process has been observed reconnects: its messages are valid, all schemas are
    stored, and the summary names the runtime the Server loads and the catalog it computes. -/
structure Reconnection where
  env : SessionEnv
  world : World
  policy : Proto.AgentJobPolicySnapshot
  capability : Proto.AgentCapabilitySnapshot
  inventory : Proto.AgentPluginInventory
  summary : Proto.AgentReconcileSummary
  catalog : Proto.ReplaceAllJobs
  policyValid : validatePolicySnapshot policy none = .ok ()
  capabilityValid : validateCapabilitySnapshot capability = .ok ()
  inventoryValid : validatePluginInventory inventory = .ok ()
  summaryValid : validateReconcileSummary summary = .ok ()
  observed : world.instances.get env.agentId = some summary.instanceId
  stored : missingForInventory world.schemas inventory = .ok []
  runtimeNamed : Desk.namesRuntime env (loadedRuntime env world inventory) summary = true
  computed : sessionCatalog env.agentId policy capability inventory
    (loadedRuntime env world inventory) (pausesLeft env world inventory) world.jobs.tables =
      some catalog
  catalogNamed : namesCatalog env catalog summary = true

namespace Reconnection

variable (r : Reconnection)

def event : Message → Event
  | .summary => .summary r.summary
  | .policy => .policy (some r.policy)
  | .capability => .capability (some r.capability)
  | .inventory => .inventory r.inventory

/-- The messages, with the ids drawn for commands; the database does what it is asked for. -/
def acts (messages : List (Message × List UInt8)) : List Act :=
  messages.map fun m => .event (r.event m.1) { commandId := m.2 }

/-- The variables the flags stand for. -/
def session (a : Progress) : BusinessSession where
  acceptedPolicy := if a.policy then some r.policy else none
  acceptedCapability := if a.capability then some r.capability else none
  sentPluginRuntime := if a.inventory then some (loadedRuntime r.env r.world r.inventory) else none
  pluginRuntimeReady := a.ready
  acceptedPluginInventory := if a.inventory then some r.inventory else none
  pendingSchemaHashes := []
  lastSentCatalog := if a.remembered then some r.catalog else none
  reconcileSummary := if a.held then some r.summary else none
  forceReconcile := a.force
  resyncRequestedRevision := none

end Reconnection

/-! ## 4. The session and the flags -/

/-- The session is where the flags say it is. -/
structure Follows (r : Reconnection) (d : Desk) (a : Progress) : Prop where
  session : d.session = r.session a
  running : d.running = true
  jobs : d.world.jobs = r.world.jobs
  runtimes : d.world.runtimes = r.world.runtimes
  schemas : d.world.schemas = r.world.schemas
  pauses : d.world.pauses =
    if a.inventory then pausesLeft r.env r.world r.inventory else r.world.pauses
  observed : d.world.instances.get r.env.agentId = some r.summary.instanceId
  transferred : transfers d.record = a.transferred

namespace Follows

variable {r : Reconnection} {d : Desk} {a : Progress}

theorem start (r : Reconnection) : Follows r (.start r.world) {} :=
  ⟨rfl, rfl, rfl, rfl, rfl, rfl, r.observed, rfl⟩

/-- An entry that is no transfer. -/
theorem log (h : Follows r d a) {e : Entry} (he : transfers [e] = false) : Follows r (d.log e) a := by
  refine { h with transferred := ?_ }
  show transfers ([e] ++ d.record) = a.transferred
  rw [← h.transferred]
  unfold transfers at he ⊢
  rw [any_append, he, Bool.false_or]

theorem reply (h : Follows r d a) (reply : Reply) : Follows r (d.reply reply) a := h.log rfl

theorem request_session (r : Reconnection) (a : Progress) : (r.session a).request =
    if a.ready && a.policy && a.capability && a.inventory then
      some (r.policy, r.capability, r.inventory)
    else none := by
  obtain ⟨p, c, i, held, force, ready, remembered, transferred⟩ := a
  cases ready <;> cases p <;> cases c <;> cases i <;> rfl

/-- When the catalog goes out. -/
theorem deliver_eq (h : Follows r d a) (turn : Turn) : d.deliver r.env turn a.force r.catalog =
      if a.force || !(a.remembered || a.held) then d.sendReplaceAll turn r.catalog
      else if a.remembered then (d.log (.skippedCatalog r.catalog), false)
      else ((d.log (.skippedCatalog r.catalog)).update fun s =>
        { s with lastSentCatalog := some r.catalog }, false) := by
  have hlast : d.session.lastSentCatalog = if a.remembered then some r.catalog else none := by
    rw [h.session]
    rfl
  have hheld : d.session.reconcileSummary = if a.held then some r.summary else none := by
    rw [h.session]
    rfl
  unfold Desk.deliver
  rw [hlast, hheld]
  cases a.force <;> cases a.remembered <;> cases a.held <;> simp [r.catalogNamed]

theorem deliver (h : Follows r d a) (commandId : List UInt8) :
    Follows r (d.deliver r.env { commandId := commandId } a.force r.catalog).1
      { a with
        remembered := true
        transferred := a.transferred || a.force || !(a.remembered || a.held) } := by
  have hsession : ∀ transferred, { d.session with lastSentCatalog := some r.catalog } =
      r.session { a with remembered := true, transferred := transferred } := by
    intro transferred
    rw [h.session]
    rfl
  rw [h.deliver_eq]
  split
  · rename_i hsends
    refine { h with session := hsession _, transferred := ?_ }
    show true = (a.transferred || a.force || _)
    rw [Bool.or_assoc, hsends, Bool.or_true]
  · rename_i hskips
    have htransferred : (a.transferred || a.force || !(a.remembered || a.held)) = a.transferred := by
      rw [Bool.or_assoc, Bool.eq_false_iff.mpr hskips, Bool.or_false]
    rw [htransferred]
    split
    · rename_i hremembered
      refine { h with session := ?_ }
      rw [← hremembered]
      exact h.session
    · exact { h with session := hsession _ }

/-- The catalog is computed and dealt with. -/
theorem sendJobCatalog (h : Follows r d a) (commandId : List UInt8)
    (hinventory : a.inventory = true) :
    Follows r (d.sendJobCatalog r.env { commandId := commandId } a.force r.policy r.capability
        r.inventory (loadedRuntime r.env r.world r.inventory)).1
      { a with
        remembered := true
        transferred := a.transferred || a.force || !(a.remembered || a.held) } := by
  have hcomputed : sessionCatalog r.env.agentId r.policy r.capability r.inventory
      (loadedRuntime r.env r.world r.inventory) d.world.pauses d.world.jobs.tables =
        some r.catalog := by
    rw [h.pauses, if_pos hinventory, h.jobs]
    exact r.computed
  have hlogged := (h.log (e := .loadCatalog r.policy r.capability r.inventory) rfl).log
    (e := .computedCatalog r.catalog) rfl
  have hsend : d.sendJobCatalog r.env { commandId := commandId } a.force r.policy r.capability
      r.inventory (loadedRuntime r.env r.world r.inventory) =
        ((d.log (.loadCatalog r.policy r.capability r.inventory)).log
          (.computedCatalog r.catalog)).deliver r.env { commandId := commandId } a.force r.catalog := by
    unfold Desk.sendJobCatalog
    dsimp only [Desk.log]
    rw [if_pos rfl, hcomputed]
  rw [hsend]
  exact hlogged.deliver commandId

/-- **An evaluation.** -/
theorem reevaluate (h : Follows r d a) (commandId : List UInt8) (converged : Bool) :
    Follows r (d.reevaluate r.env { commandId := commandId } converged) (a.evaluate converged) := by
  have hrequest := request_session r a
  rw [← h.session] at hrequest
  unfold Desk.reevaluate Progress.evaluate
  rw [hrequest]
  split
  · rename_i hcan
    split at hcan
    · cases hcan
    · rename_i hnot
      rw [if_neg hnot]
      exact h
  · rename_i policy capability inventory hcan
    split at hcan
    · rename_i hready
      cases hcan
      rw [if_pos hready]
      have hinventory : a.inventory = true := (Bool.and_eq_true_iff.mp hready).2
      have hruntime : d.session.sentPluginRuntime =
          some (loadedRuntime r.env r.world r.inventory) := by
        rw [h.session]
        exact if_pos hinventory
      have hforce : d.session.forceReconcile = a.force := by
        rw [h.session]
        rfl
      have hsent := h.sendJobCatalog commandId hinventory
      rw [hruntime, hforce]
      cases converged with
      | true =>
        refine { hsent with session := ?_ }
        rw [Bool.not_true, Bool.and_false]
        show { Desk.session _ with forceReconcile := false } = _
        rw [hsent.session]
        rfl
      | false =>
        rw [Bool.not_false, Bool.and_true]
        exact hsent
    · cases hcan

/-- The summary is held, and the process is a known one. -/
theorem onSummary (h : Follows r d a) :
    Follows r (d.onSummary r.env r.summary) (a.next .summary) := by
  unfold Desk.onSummary
  rw [r.summaryValid]
  have hknown : decide (d.world.instances.get r.env.agentId ≠ some r.summary.instanceId) = false :=
    decide_eq_false (not_not_intro h.observed)
  refine { h with session := ?_, observed := ?_ }
  · rw [hknown, h.session]
    rfl
  · rw [Table.get_insert, if_pos rfl]

/-- A policy that is valid at first is valid once it is accepted. -/
theorem policy_valid_again (r : Reconnection) :
    validatePolicySnapshot r.policy (some r.policy) = .ok () := by
  have hvalid := r.policyValid
  unfold validatePolicySnapshot at hvalid ⊢
  split at hvalid
  · cases hvalid
  · split at hvalid
    · cases hvalid
    · split at hvalid
      · cases hvalid
      · simp only [lt_irrefl, ne_eq, not_true_eq_false, and_false, if_false, *]
        rfl

section

variable (h : Follows r d a) (commandId : List UInt8)
include h

/-- The policy: a first one makes the session forget the summary. -/
theorem onPolicy :
    Follows r (d.onPolicy r.env { commandId := commandId } (some r.policy)) (a.next .policy) := by
  have hpolicy : d.session.acceptedPolicy = if a.policy then some r.policy else none := by
    rw [h.session]
    rfl
  have hnewest : (d.session.acceptedPolicy.filter fun current =>
      r.policy.revision < current.revision) = none := by
    rw [hpolicy]
    cases a.policy <;> simp
  have hvalid : validatePolicySnapshot r.policy d.session.acceptedPolicy = .ok () := by
    rw [hpolicy]
    split
    · exact policy_valid_again r
    · exact r.policyValid
  unfold Desk.onPolicy
  dsimp only
  rw [hnewest]
  rw [hvalid]
  show Follows r (if d.session.acceptedPolicy = some r.policy then _ else _)
    (if a.policy = true then _ else _)
  have hsession : (d.acceptPolicy r.policy).session =
      { d.session with
        acceptedPolicy := some r.policy
        reconcileSummary := if d.session.acceptedPolicy = some r.policy then
          d.session.reconcileSummary else none } := rfl
  by_cases hagain : a.policy = true
  · rw [if_pos hagain] at hpolicy
    rw [if_pos hpolicy, ← hpolicy] at hsession
    have haccepted : Follows r (d.acceptPolicy r.policy) a :=
      { h with session := hsession.trans h.session }
    rw [if_pos hpolicy, if_pos hagain]
    exact haccepted.reply _
  · rw [if_neg hagain] at hpolicy
    have hnew : ¬ d.session.acceptedPolicy = some r.policy := by
      rw [hpolicy]
      nofun
    rw [if_neg hnew, h.session] at hsession
    have haccepted : Follows r (d.acceptPolicy r.policy) { a with policy := true, held := false } :=
      { h with session := hsession }
    rw [if_neg hnew, if_neg hagain]
    exact (haccepted.reply _).reevaluate commandId false

theorem onCapability :
    Follows r (d.onCapability r.env { commandId := commandId } (some r.capability))
      (a.next .capability) := by
  unfold Desk.onCapability
  dsimp only
  rw [r.capabilityValid]
  have haccepted : Follows r (d.acceptCapability r.capability) { a with capability := true } := by
    refine { h with session := ?_ }
    show { d.session with acceptedCapability := some r.capability } = _
    rw [h.session]
    rfl
  exact haccepted.reevaluate commandId false

/-- The runtime is loaded, and sent unless the summary is still held. -/
theorem sendPluginRuntimeSnapshot (hfirst : a.inventory = false) : Follows r
      (((d.acceptInventory r.inventory).checkInventory r.inventory []).sendPluginRuntimeSnapshot r.env
        { commandId := commandId } r.inventory)
      { a with
        inventory := true
        ready := !a.force && a.held
        transferred := a.transferred || !(!a.force && a.held) } := by
  have hforce : d.session.forceReconcile = a.force := by
    rw [h.session]
    rfl
  have hheld : d.session.reconcileSummary = if a.held then some r.summary else none := by
    rw [h.session]
    rfl
  have hnamed : (!d.session.forceReconcile && d.session.reconcileSummary.any
      (Desk.namesRuntime r.env (loadedRuntime r.env r.world r.inventory))) = (!a.force && a.held) := by
    rw [hforce, hheld]
    cases a.held <;> simp [r.runtimeNamed]
  have hloaded : loadAgentPluginRuntime d.world.runtimes r.env.agentId r.inventory =
      loadedRuntime r.env r.world r.inventory := by
    rw [h.runtimes]
    rfl
  unfold Desk.sendPluginRuntimeSnapshot
  dsimp only [Desk.acceptInventory, Desk.checkInventory, Desk.resetRuntime, Desk.log, Desk.update]
  rw [if_pos rfl, hloaded, hnamed]
  have hpauses : d.world.pauses.acknowledgeNewRuntime r.env.agentId
      (loadedRuntime r.env r.world r.inventory) = pausesLeft r.env r.world r.inventory := by
    rw [h.pauses, hfirst]
    rfl
  cases hsame : (!a.force && a.held) with
  | true =>
    refine { h with session := ?_, pauses := hpauses, transferred := ?_ }
    · rw [h.session]
      rfl
    · rw [Bool.not_true, Bool.or_false]
      exact h.transferred
  | false =>
    refine { h with session := ?_, pauses := hpauses, transferred := ?_ }
    · rw [h.session]
      rfl
    · rw [Bool.not_false, Bool.or_true]
      rfl

theorem onInventory (hfirst : a.inventory = false) :
    Follows r (d.onInventory r.env { commandId := commandId } r.inventory) (a.next .inventory) := by
  have hmissing : d.missingSchemas { commandId := commandId } r.inventory = .ok [] := by
    unfold Desk.missingSchemas
    rw [if_pos rfl, h.schemas]
    exact r.stored
  unfold Desk.onInventory
  rw [r.inventoryValid]
  rw [if_pos rfl, hmissing]
  exact (h.sendPluginRuntimeSnapshot commandId hfirst).reevaluate commandId true

end

/-- **One message.** -/
theorem step (h : Follows r d a) (m : Message × List UInt8) (honce : a.Once m.1) :
    Follows r (step r.env d (.event (r.event m.1) { commandId := m.2 })) (a.next m.1) := by
  obtain ⟨m, commandId⟩ := m
  show Follows r (if d.running = true then _ else d) _
  rw [if_pos h.running]
  have hreceived : Follows r (d.log (.received (r.event m))) a := h.log rfl
  cases m with
  | summary => exact hreceived.onSummary
  | policy => exact hreceived.onPolicy commandId
  | capability => exact hreceived.onCapability commandId
  | inventory => exact hreceived.onInventory commandId (honce rfl)

/-- **Any messages**, the inventory once. -/
theorem run : ∀ (messages : List (Message × List UInt8)) {d : Desk} {a : Progress}, Follows r d a →
    Along Progress.next Progress.Once a (messages.map Prod.fst) →
    Follows r (Lib.run (Session.step r.env) d (r.acts messages))
      (Lib.run Progress.next a (messages.map Prod.fst))
  | [], _, _, h, _ => h
  | m :: messages, _, _, h, honce => run messages (h.step m honce.1) honce.2

end Follows

/-! ## 5. What is transferred -/

/-- What has been transferred stays so. -/
theorem Progress.run_transferred {a : Progress} (h : a.transferred = true) :
    ∀ messages : List Message, (run Progress.next a messages).transferred = true := by
  intro messages
  induction messages generalizing a with
  | nil => exact h
  | cons m messages ih => exact ih (next_transferred h m)

/-- Policy and capability, as often as the Server asks. -/
def Message.repeated : Message → Bool
  | .policy | .capability => true
  | _ => false

/-- Where policy and capability change nothing, they may come as often as they like. -/
theorem Progress.run_settled {a : Progress} (hpolicy : a.next .policy = a)
    (hcapability : a.next .capability = a) :
    ∀ {messages : List Message}, (∀ m ∈ messages, m.repeated = true) →
      run Progress.next a messages = a := by
  intro messages hmessages
  induction messages with
  | nil => rfl
  | cons m messages ih =>
    have hm : a.next m = a := by
      have hrepeated := hmessages m mem_cons_self
      cases m with
      | policy => exact hpolicy
      | capability => exact hcapability
      | summary | inventory => cases hrepeated
    rw [run_cons, hm]
    exact ih fun m' hm' => hmessages m' (mem_cons_of_mem m hm')

theorem Progress.once_repeated : ∀ {messages : List Message} {a : Progress},
    (∀ m ∈ messages, m.repeated = true) → Along Progress.next Progress.Once a messages
  | [], _, _ => trivial
  | m :: messages, a, h => by
    refine ⟨fun hinventory => ?_, once_repeated fun m' hm' => h m' (mem_cons_of_mem m hm')⟩
    have hrepeated := h m mem_cons_self
    rw [hinventory] at hrepeated
    cases hrepeated

/-- **A reconnection without a change, exactly**: the four messages in any order, and then policy and
    capability as often as they are asked for, transfer nothing if and only if the policy comes before
    the summary and the summary before the inventory. -/
theorem nothing_transferred_iff (r : Reconnection) (messages repeats : List (Message × List UInt8))
    (horder : (messages.map Prod.fst).Perm agentOrder)
    (hrepeats : ∀ m ∈ repeats, m.1.repeated = true) :
    transfers (run (step r.env) (.start r.world) (r.acts (messages ++ repeats))).record = false ↔
      (messages.map Prod.fst).idxOf .policy < (messages.map Prod.fst).idxOf .summary ∧
        (messages.map Prod.fst).idxOf .summary < (messages.map Prod.fst).idxOf .inventory := by
  have hmem := mem_permutations'.mpr horder
  obtain ⟨honce, hiff⟩ := Progress.orders _ hmem
  have hrepeated : ∀ m ∈ repeats.map Prod.fst, m.repeated = true := by
    intro m hm
    obtain ⟨m', hm', rfl⟩ := mem_map.mp hm
    exact hrepeats m' hm'
  have hfollows := ((Follows.start r).run messages honce).run repeats
    (Progress.once_repeated hrepeated)
  have hacts : r.acts (messages ++ repeats) = r.acts messages ++ r.acts repeats := map_append
  rw [hacts, run_append, hfollows.transferred, ← hiff]
  cases htransferred : (run Progress.next {} (messages.map Prod.fst)).transferred with
  | true => rw [Progress.run_transferred htransferred]
  | false =>
    obtain ⟨hpolicy, hcapability⟩ := Progress.settled _ hmem htransferred
    rw [Progress.run_settled hpolicy hcapability hrepeated, htransferred]

section Sample

/-- The Agent of the echo plugin, with the summary of what it has. -/
def echoReconnects : Reconnection where
  env := echoAgent
  world := { echoWorld with instances := Table.empty.insert "agent-1" (List.replicate 16 1) }
  policy := allowing
  capability := collecting
  inventory := echoInstalled
  summary :=
    ⟨List.replicate 16 1, 1, List.replicate 30 0 ++ [1, 2], 2, List.replicate 30 0 ++ [2, 1]⟩
  catalog := ⟨1, [cpuJob 1 1, pluginJob 2 "plus.echo" "plus.echo.v1"]⟩
  policyValid := by decide +kernel
  capabilityValid := by decide +kernel
  inventoryValid := by decide +kernel
  summaryValid := by decide +kernel
  observed := by decide +kernel
  stored := by decide +kernel
  runtimeNamed := by decide +kernel
  computed := by decide +kernel
  catalogNamed := by decide +kernel

/-- With the policy first nothing is transferred. -/
theorem policy_first_transfers_nothing :
    transfers (run (step echoReconnects.env) (.start echoReconnects.world) (echoReconnects.acts
      ([(.policy, [1]), (.summary, [2]), (.capability, [3]), (.inventory, [4])] ++
        [(.policy, [5]), (.capability, [6])]))).record = false :=
  (nothing_transferred_iff echoReconnects _ _ (by decide) (by decide)).mpr (by decide)

/-- **In the Agent's order the runtime is sent.** -/
theorem agent_order_transfers :
    let messages := [(.summary, [1]), (.policy, [2]), (.capability, [3]), (.inventory, [4])]
    messages.map Prod.fst = agentOrder ∧
      transfers (run (step echoReconnects.env) (.start echoReconnects.world)
        (echoReconnects.acts messages)).record = true := by
  decide +kernel

end Sample

end Smalux.Session
