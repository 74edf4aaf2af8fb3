/-
  Subject:   The inventories for which anything is loaded.

  An inventory is accepted before its schemas are compared with those stored, and stays accepted when
  they are others'. A change of the runtime configuration loads the runtime for the inventory accepted,
  whether or not its schemas have been checked or are still missing.

  * `Gated` -- what is loaded for an inventory, and sent, as it should be;
  * **`inventory_gate`** -- it is, if every valid inventory names the schemas stored, and no runtime
    configuration changes while schemas are missing.
-/
import Smalux.Session.Monitors

namespace Smalux.Session

open Lib Server List Proto

/-! ## 1. The gate -/

/-- The inventory something is loaded for. -/
def Entry.loadedFor : Entry → Option AgentPluginInventory
  | .loadRuntime inventory => some inventory
  | .loadCatalog _ _ inventory => some inventory
  | _ => none

/-- The schemas that are missing while a runtime is sent. -/
def Entry.missing : Entry → List (List UInt8)
  | .runtimeSnapshot _ pending => pending
  | _ => []

/-- The inventory has passed `missing_for_inventory`. -/
def checked (inventory : AgentPluginInventory) (record : List Entry) : Bool :=
  record.any fun
    | .checkedInventory inventory' => inventory' = inventory
    | _ => false

/-- Whatever is loaded is loaded for an inventory that has passed both checks, and no runtime is sent
    while schemas are missing. -/
def Gated (e : Entry) (past : List Entry) : Prop :=
  (∀ inventory ∈ e.loadedFor,
    validatePluginInventory inventory = .ok () ∧ checked inventory past = true) ∧ e.missing = []
  deriving Decidable

/-! ## 2. The condition -/

/-- A valid inventory names no schema stored for another, and the runtime configuration changes while
    no schema is missing. -/
def SchemasAgree (d : Desk) : Act → Prop
  | .event (.inventory inventory) turn =>
    validatePluginInventory inventory = .ok () →
      (d.missingSchemas turn inventory).toOption.isSome = true
  | .event .runtimeChanged _ => d.session.pendingSchemaHashes = []
  | _ => True

instance SchemasAgree.decidable (d : Desk) : ∀ act, Decidable (SchemasAgree d act)
  | .outside _ => .isTrue trivial
  | .event event _ =>
    match event with
    | .inventory _ => inferInstanceAs (Decidable (_ → _))
    | .runtimeChanged => inferInstanceAs (Decidable (_ = _))
    | .catalogChanged | .policy _ | .summary _ | .capability _ | .schemaResponse _
    | .acknowledgement _ | .pauseNotice _ | .pauseAcknowledgement | .otherPlugin | .commandResult _
    | .taskReport | .jobEvent | .other | .closed => .isTrue trivial

/-! ## 3. The inventory accepted -/

section Rule

variable {turn : Turn} {event : Event} {d d' : Desk}

/-- The inventory accepted has passed both checks. -/
structure Passed (d : Desk) : Prop where
  accepted : d.running = true → ∀ inventory, d.session.acceptedPluginInventory = some inventory →
    validatePluginInventory inventory = .ok () ∧ checked inventory d.record = true
  gated : Always Gated d.record

/-- With the condition on the event. -/
structure Passing (turn : Turn) (event : Event) (d : Desk) : Prop where
  passed : Passed d
  running : d.running = true
  agree : ∀ inventory, event = .inventory inventory → validatePluginInventory inventory = .ok () →
    (d.missingSchemas turn inventory).toOption.isSome = true
  complete : event = .runtimeChanged → d.session.pendingSchemaHashes = []

theorem Gated.quiet (e : Entry) (past : List Entry) (h : e.quiet = true) : Gated e past := by
  have hloaded : e.loadedFor = none := by cases e <;> first | rfl | cases h
  refine ⟨fun inventory hinventory => ?_, by cases e <;> first | rfl | cases h⟩
  rw [hloaded] at hinventory
  cases hinventory

/-- The inventory accepted, with more in the record: what has been checked stays checked. -/
theorem Passed.longer (h : Passed d) (entries : List Entry) : d.running = true →
    ∀ inventory, d.session.acceptedPluginInventory = some inventory →
      validatePluginInventory inventory = .ok () ∧ checked inventory (entries ++ d.record) = true := by
  intro hrunning inventory hinventory
  obtain ⟨hvalid, hchecked⟩ := h.accepted hrunning inventory hinventory
  refine ⟨hvalid, ?_⟩
  unfold checked at hchecked ⊢
  rw [any_append, hchecked, Bool.or_true]

theorem Passed.calm (hcalm : Calm d d') (h : Passed d) : Passed d' := by
  obtain ⟨revision, hsession⟩ := hcalm.session
  obtain ⟨entries, -, hrecord⟩ := hcalm.record
  refine ⟨?_, hcalm.always .quiet h.gated⟩
  rw [hcalm.running, hsession, hrecord]
  exact h.longer entries

theorem Passing.calm (hcalm : Calm d d') (h : Passing turn event d) : Passing turn event d' := by
  obtain ⟨revision, hsession⟩ := hcalm.session
  refine ⟨h.passed.calm hcalm, hcalm.running.trans h.running, ?_, ?_⟩
  · unfold Desk.missingSchemas
    rw [hcalm.world]
    exact h.agree
  · rw [hsession]
    exact h.complete

/-- Something is loaded for the inventory accepted. -/
theorem Passing.load (h : Passing turn event d) {inventory : AgentPluginInventory}
    (hinventory : d.session.acceptedPluginInventory = some inventory) {e : Entry}
    (hloaded : e.loadedFor = some inventory) (hmissing : e.missing = []) : Gated e d.record := by
  refine ⟨fun inventory' hinventory' => ?_, hmissing⟩
  cases hloaded.symm.trans hinventory'
  exact h.passed.accepted h.running inventory hinventory

/-- The runtime is loaded, and sent only if nothing is missing. -/
theorem Passing.runtime {env : SessionEnv} (h : Passing turn event d)
    {inventory : AgentPluginInventory}
    (hinventory : d.session.acceptedPluginInventory = some inventory)
    (hpending : event = .runtimeChanged ∨ d.session.pendingSchemaHashes = [])
    (hloaded : RuntimeLoaded env d inventory d') : Passing turn event d' := by
  have hgated : Gated (.loadRuntime inventory) d.record := h.load hinventory rfl rfl
  have hcomplete : d.session.pendingSchemaHashes = [] := by
    rcases hpending with hchanged | hnone
    · exact h.complete hchanged
    · exact hnone
  cases hloaded with
  | unavailable =>
    exact { h with passed := ⟨h.passed.longer [_], hgated, h.passed.gated⟩ }
  | named =>
    exact { h with passed := ⟨h.passed.longer [_, _], ⟨nofun, rfl⟩, hgated, h.passed.gated⟩ }
  | sent =>
    exact { h with passed := ⟨h.passed.longer [_, _], ⟨nofun, hcomplete⟩, hgated, h.passed.gated⟩ }

/-- The inventory is accepted and checked. -/
theorem Passing.inventory (h : Passing turn event d) {inventory : AgentPluginInventory}
    (hevent : event = .inventory inventory) (hvalid : validatePluginInventory inventory = .ok ())
    (missing : List (List UInt8)) :
    Passing turn event ((d.acceptInventory inventory).checkInventory inventory missing) := by
  refine ⟨⟨fun _ accepted haccepted => ?_, ⟨nofun, rfl⟩, ⟨nofun, rfl⟩, h.passed.gated⟩, h.running,
    h.agree, fun hchanged => nomatch hevent.symm.trans hchanged⟩
  cases haccepted
  refine ⟨hvalid, ?_⟩
  exact any_eq_true.mpr ⟨.checkedInventory inventory, mem_cons_self, decide_eq_true rfl⟩

theorem gateRule (env : SessionEnv) (turn : Turn) (event : Event) :
    HandleRule env turn event (Passing turn event) Passed where
  calm := Passing.calm
  calmAfter := Passed.calm
  done := fun h => h.passed
  stop := fun h => ⟨nofun, h.passed.gated⟩
  converged := fun h => ⟨h.accepted, h.gated⟩
  policy := fun _ _ h =>
    { h with passed := ⟨h.passed.longer [_], ⟨nofun, rfl⟩, h.passed.gated⟩ }
  capability := fun _ _ h =>
    { h with passed := ⟨h.passed.longer [_], ⟨nofun, rfl⟩, h.passed.gated⟩ }
  inventory := fun _ missing hevent hvalid h => h.inventory hevent hvalid missing
  unchecked := by
    intro d inventory reason hevent hvalid hmissing h
    have hagree := h.agree inventory hevent hvalid
    rw [hmissing] at hagree
    cases hagree
  unsaved := fun _ h => ⟨nofun, ⟨nofun, rfl⟩, h.passed.gated⟩
  schema := fun _ _ _ hevent h =>
    ⟨⟨h.passed.accepted, h.passed.gated⟩, h.running,
      fun _ hinventory => (nomatch hevent.symm.trans hinventory),
      fun hchanged => nomatch hevent.symm.trans hchanged⟩
  reset := fun _ h =>
    { h with passed := ⟨h.passed.accepted, h.passed.gated⟩ }
  runtime := fun _ _ hinventory hpending hloaded h => h.runtime hinventory hpending hloaded
  acknowledged := fun _ _ _ _ h =>
    { h with passed := ⟨h.passed.longer [_], ⟨nofun, rfl⟩, h.passed.gated⟩ }
  panic := fun _ _ h => ⟨nofun, ⟨nofun, rfl⟩, h.passed.gated⟩
  unavailable := fun _ _ _ hrequest h =>
    ⟨h.passed.longer [_], h.load (BusinessSession.request_eq_some hrequest).2.2.2 rfl rfl,
      h.passed.gated⟩
  deliver := by
    intro d out force policy capability inventory runtime catalog hrequest _ _ _ hdelivered h
    have hgated : Gated (.loadCatalog policy capability inventory) d.record :=
      h.load (BusinessSession.request_eq_some hrequest).2.2.2 rfl rfl
    cases hdelivered with
    | already | named | sent =>
      exact ⟨h.passed.longer [_, _, _], ⟨nofun, rfl⟩, ⟨nofun, rfl⟩, hgated, h.passed.gated⟩
    | refused => exact ⟨nofun, ⟨nofun, rfl⟩, hgated, h.passed.gated⟩
  paused := fun _ _ _ h =>
    { h with passed := ⟨h.passed.accepted, h.passed.gated⟩ }
  resend := fun _ _ _ _ _ h => ⟨h.passed.longer [_], ⟨nofun, rfl⟩, h.passed.gated⟩

/-- A message, before it is looked at. -/
theorem Passed.received (h : Passed d) (event : Event) : Passed (d.log (.received event)) :=
  ⟨h.longer [_], ⟨nofun, rfl⟩, h.gated⟩

theorem Passing.received (h : Passed d) (hrunning : d.running = true)
    (hok : SchemasAgree d (.event event turn)) : Passing turn event (d.log (.received event)) := by
  refine ⟨h.received event, hrunning, ?_, ?_⟩
  · rintro inventory rfl
    exact hok
  · rintro rfl
    exact hok

theorem Passed.onSummary (h : Passed d) (env : SessionEnv) (summary : AgentReconcileSummary) :
    Passed (d.onSummary env summary) := by
  unfold Desk.onSummary
  split <;> exact ⟨h.accepted, h.gated⟩

/-- **One iteration.** -/
theorem Passed.step (h : Passed d) {env : SessionEnv} {act : Act} (hok : SchemasAgree d act) :
    Passed (step env d act) := by
  cases act with
  | outside => exact ⟨h.accepted, h.gated⟩
  | event event turn =>
    show Passed (if d.running = true then d.handle env turn event else d)
    split
    · rename_i hrunning
      refine (gateRule env turn event).handle ?_ fun _ => .received h hrunning hok
      intro summary _
      exact (h.received event).onSummary env summary
    · exact h

end Rule

/-! ## 4. What is loaded -/

/-- **In every run that keeps to the condition, the gate holds.** -/
theorem inventory_gate (env : SessionEnv) (world : World) (acts : List Act)
    (h : Along (step env) SchemasAgree (.start world) acts) :
    Always Gated (run (step env) (.start world) acts).record := by
  have hstep : ∀ d act, Passed d → SchemasAgree d act → Passed (step env d act) :=
    fun _ _ hinv hok => hinv.step hok
  have hstart : Passed (.start world) := ⟨nofun, ⟨nofun, rfl⟩, ⟨nofun, rfl⟩, trivial⟩
  exact (run_invariant hstep acts (.start world) hstart h).gated

/-- The Agent signs on, and the runtime configuration changes afterwards. -/
theorem runtime_change_gated :
    let acts := signOn ++ [plainly 5 .runtimeChanged]
    let record := (run (step echoAgent) (.start echoWorld) acts).record
    record.filterMap Entry.loadedFor = [echoInstalled, echoInstalled, echoInstalled] ∧
      Always Gated record :=
  ⟨by decide +kernel, inventory_gate echoAgent echoWorld _ (by decide +kernel)⟩

/-- The hash of the echo plugin's schema, with other kinds of tasks. -/
def otherKinds : AgentPluginInventory := ⟨2, [installed "plus.echo" ["plus.other.v1"]]⟩

/-- The echo plugin with another schema. -/
def otherSchema : AgentPluginInventory :=
  ⟨2, [⟨"plus.echo", "1.0.0", ["plus.echo.v1"], List.replicate 32 1, 1⟩]⟩

/-- **The gate is open**: after an inventory whose schema is not the one stored, a change loads the
    runtime for it; after one whose schema is missing, a change sends a runtime. -/
theorem unchecked_inventory_loaded :
    let after := fun inventory => (run (step echoAgent) (.start echoWorld) (signOn ++
      [plainly 5 (.inventory inventory), plainly 6 .runtimeChanged])).record
    (after otherKinds).filterMap Entry.loadedFor = [otherKinds, echoInstalled, echoInstalled] ∧
      checked otherKinds (after otherKinds) = false ∧ ¬ Always Gated (after otherKinds) ∧
      (after otherSchema).head?.map Entry.missing = some [List.replicate 32 1] ∧
      ¬ Always Gated (after otherSchema) := by
  decide +kernel

end Smalux.Session
