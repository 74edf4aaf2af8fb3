/-
  Subject:   Which of the stored Jobs a session sends (database/agent_job.rs, state.rs, business.rs).

  Three filters, one after the other: the database applies the Agent's policy and looks whether the
  Agent knows the kind of task; the registry of pauses takes out the Jobs of paused plugins; the
  session takes out the Jobs of plugins that are not configured. Together they are one predicate
  (`keeps`). The second half of the first one looks for the kind in the capability and in the entries
  of all plugins, whoever the Job belongs to.

  * `sessionCatalog_eq` -- the three filters are one;
  * **`session_filter_exact_iff`** -- the outcome is the one wanted exactly if no Job is kept for a
    kind that somebody else declares.
-/
import Smalux.Server.CatalogHistory
import Smalux.Server.RuntimeStore
import Smalux.Session.Messages

namespace Smalux.Session

open Lib Server List Proto

/-! ## 1. The stored Jobs -/

/-- The kind in a row is that of its definition. -/
def Kinded (d : CatalogTables) : Prop :=
  ∀ key row, d.jobs.get key = some row → taskKind row.definition = .ok row.taskKind

/-- The tables of Jobs as replacements leave them. -/
structure JobStore where
  tables : CatalogTables
  kinded : Kinded tables

theorem Kinded.step {d : CatalogTables} (h : Kinded d) (env : WebEnv) (call : CatalogCall) :
    Kinded (call.step env d) := by
  rcases call.step_cases env d with ⟨record, hreplaced⟩ | hsame
  · rintro ⟨agentId, jobId⟩ row hrow
    by_cases hagent : agentId = call.agentId
    · subst hagent
      obtain ⟨definition, -, kind, -, hkind, rfl⟩ := hreplaced.stores.row hrow
      exact hkind
    · exact h _ row ((hreplaced.otherJobs (agentId, jobId) hagent).symm.trans hrow)
  · rw [hsame]
    exact h

/-- What a sequence of replacements leaves. -/
def JobStore.ofCalls (env : WebEnv) (calls : List CatalogCall) : JobStore where
  tables := run (CatalogCall.step env) .empty calls
  kinded :=
    have hstep : ∀ d call, Kinded d → True → Kinded (CatalogCall.step env d call) :=
      fun _ call h _ => h.step env call
    run_invariant hstep calls _ (fun _ _ hrow => (nomatch hrow)) (along_trivial calls _)

/-- The Agent's rows: `ORDER BY job_id`. -/
def storedRows (d : CatalogTables) (agentId : String) : List AgentJob :=
  ((d.jobs.entries.filter fun e => e.1.1 = agentId).insertionSort fun a b => a.1.2 ≤ b.1.2).map
    Prod.snd

/-- The Agent's Jobs. -/
def JobStore.jobs (store : JobStore) (agentId : String) : List JobDefinition :=
  (storedRows store.tables agentId).map AgentJob.definition

/-! ## 2. The filters -/

def deniesAllOrKind (policy : AgentJobPolicySnapshot) (taskKind : String) : Bool :=
  policy.denyAll || policy.deniedTaskKinds.any (· = taskKind)

def loadAgentJobCatalog (d : CatalogTables) (agentId : String)
    (policy : AgentJobPolicySnapshot) : Option AgentJobCatalogRecord := do
  let revision ← d.catalogs.get agentId
  let rows := (storedRows d agentId).filter fun row => !deniesAllOrKind policy row.taskKind
  return ⟨agentId, ⟨revision, rows.map AgentJob.definition⟩⟩

/-- The kind is in the capability, or some installed plugin declares it. -/
def knownKind (capability : AgentCapabilitySnapshot) (inventory : AgentPluginInventory)
    (kind : String) : Bool :=
  capability.taskKinds.any (· = kind) ||
    inventory.plugins.any fun plugin => plugin.taskKinds.any (· = kind)

def supports (capability : AgentCapabilitySnapshot) (inventory : AgentPluginInventory)
    (job : JobDefinition) : Bool :=
  match taskKind job with
  | .error _ => false
  | .ok kind => knownKind capability inventory kind

def loadAgentJobCatalogForSession (d : CatalogTables) (agentId : String)
    (policy : AgentJobPolicySnapshot) (capability : AgentCapabilitySnapshot)
    (inventory : AgentPluginInventory) : Option AgentJobCatalogRecord := do
  let record ← loadAgentJobCatalog d agentId policy
  let jobs := record.catalog.jobs.filter (supports capability inventory)
  return { record with catalog := { record.catalog with jobs := jobs } }

/-- The plugin's configuration, if the Job is a plugin's. -/
def pluginOf (job : JobDefinition) : Option PluginTaskConfig :=
  match job.task.bind TaskDefinition.task with
  | some (.plugin config) => some config
  | _ => none

/-- Agent, plugin and version. -/
abbrev PluginPauseKey := String × String × String

/-- `PluginPauseRegistry`. -/
abbrev Pauses := Table PluginPauseKey PluginPauseNotice

/-- `filter_catalog`. -/
def Pauses.filterCatalog (pauses : Pauses) (agentId : String) (catalog : ReplaceAllJobs) :
    ReplaceAllJobs :=
  { catalog with
    jobs := catalog.jobs.filter fun job =>
      match pluginOf job with
      | none => true
      | some plugin => !pauses.contains (agentId, plugin.pluginId, plugin.pluginVersion) }

def configured (runtime : PluginRuntimeSnapshot) (plugin : PluginTaskConfig) : Bool :=
  runtime.plugins.any fun entry =>
    entry.pluginId = plugin.pluginId && entry.version = plugin.pluginVersion

def filterCatalogForRuntime (catalog : ReplaceAllJobs) (runtime : PluginRuntimeSnapshot) :
    ReplaceAllJobs :=
  { catalog with
    jobs := catalog.jobs.filter fun job =>
      match pluginOf job with
      | none => true
      | some plugin => configured runtime plugin }

/-! ## 3. Their composition -/

section Composition

variable (agentId : String) (policy : AgentJobPolicySnapshot)
  (capability : AgentCapabilitySnapshot) (inventory : AgentPluginInventory)
  (runtime : PluginRuntimeSnapshot) (pauses : Pauses)

/-- The catalog a session computes. -/
def sessionCatalog (d : CatalogTables) : Option ReplaceAllJobs :=
  (loadAgentJobCatalogForSession d agentId policy capability inventory).map fun record =>
    filterCatalogForRuntime (pauses.filterCatalog agentId record.catalog) runtime

/-- The plugin is configured and not paused. -/
def active (plugin : PluginTaskConfig) : Bool :=
  configured runtime plugin && !pauses.contains (agentId, plugin.pluginId, plugin.pluginVersion)

/-- What the filters let through. -/
def keeps (job : JobDefinition) : Bool :=
  match taskKind job with
  | .error _ => false
  | .ok kind =>
    !deniesAllOrKind policy kind && knownKind capability inventory kind &&
      match pluginOf job with
      | none => true
      | some plugin => active agentId runtime pauses plugin

/-- The plugin's own entry in the inventory declares the kind. -/
def declares (plugin : PluginTaskConfig) (kind : String) : Bool :=
  inventory.plugins.any fun entry =>
    entry.pluginId = plugin.pluginId && entry.version = plugin.pluginVersion &&
      entry.taskKinds.any (· = kind)

/-- What should be let through: a kind that is not denied, in the capability if the task is built in,
    and otherwise declared by the plugin itself, which is configured and not paused. -/
def wanted (job : JobDefinition) : Bool :=
  match taskKind job with
  | .error _ => false
  | .ok kind =>
    !deniesAllOrKind policy kind &&
      match pluginOf job with
      | none => capability.taskKinds.any (· = kind)
      | some plugin => declares inventory plugin kind && active agentId runtime pauses plugin

/-- The kind is known, but not from where it should be: that of a built-in task only from a plugin,
    that of an active plugin only from the capability or from another plugin. -/
def foreignKind (job : JobDefinition) : Bool :=
  match taskKind job with
  | .error _ => false
  | .ok kind =>
    !deniesAllOrKind policy kind && knownKind capability inventory kind &&
      match pluginOf job with
      | none => !capability.taskKinds.any (· = kind)
      | some plugin => active agentId runtime pauses plugin && !declares inventory plugin kind

variable {agentId policy capability inventory runtime pauses}

/-- The policy looks at the row, the other filters at the definition. -/
theorem filter_rows (store : JobStore) (p : String → Bool) :
    ((storedRows store.tables agentId).filter fun row => p row.taskKind).map AgentJob.definition =
      (store.jobs agentId).filter fun job =>
        match taskKind job with
        | .error _ => false
        | .ok kind => p kind := by
  unfold JobStore.jobs
  rw [filter_map]
  congr 1
  refine filter_congr fun row hrow => ?_
  obtain ⟨⟨key, row'⟩, hentry, rfl⟩ := mem_map.mp hrow
  rw [mem_insertionSort] at hentry
  have hget := Table.get_eq_some_iff.mpr (mem_filter.mp hentry).1
  simp only [Function.comp, store.kinded _ _ hget]

/-- **The three filters are one.** -/
theorem sessionCatalog_eq (store : JobStore) :
    sessionCatalog agentId policy capability inventory runtime pauses store.tables =
      (store.tables.catalogs.get agentId).map fun revision =>
        ⟨revision, (store.jobs agentId).filter
          (keeps agentId policy capability inventory runtime pauses)⟩ := by
  unfold sessionCatalog loadAgentJobCatalogForSession loadAgentJobCatalog
  cases store.tables.catalogs.get agentId with
  | none => rfl
  | some =>
    simp only [Option.pure_def, Option.bind_eq_bind, Option.bind_some, Option.map_some,
      Pauses.filterCatalog, filterCatalogForRuntime, filter_filter]
    congr 2
    rw [filter_rows store (fun kind => !deniesAllOrKind policy kind), filter_filter]
    refine filter_congr fun job _ => ?_
    unfold keeps supports active
    cases taskKind job with
    | error => simp
    | ok =>
      cases pluginOf job with
      | none => simp [Bool.and_comm]
      | some => simp only []; ac_rfl

theorem knownKind_of_declares {plugin : PluginTaskConfig} {kind : String}
    (h : declares inventory plugin kind = true) : knownKind capability inventory kind = true := by
  obtain ⟨entry, hentry, hdeclared⟩ := any_eq_true.mp h
  rw [Bool.and_eq_true] at hdeclared
  rw [knownKind, Bool.or_eq_true]
  exact .inr (any_eq_true.mpr ⟨entry, hentry, hdeclared.2⟩)

theorem guarded_eq_iff {b c : Bool} (a p : Bool) (h : c = true → b = true) :
    (a && b && p) = (a && (c && p)) ↔ (a && b && (p && !c)) = false := by
  revert a p b c
  decide

/-- A Job is let through as wanted, unless its kind is known from elsewhere. -/
theorem keeps_eq_wanted_iff (job : JobDefinition) :
    keeps agentId policy capability inventory runtime pauses job =
        wanted agentId policy capability inventory runtime pauses job ↔
      foreignKind agentId policy capability inventory runtime pauses job = false := by
  unfold keeps wanted foreignKind
  cases taskKind job with
  | error => simp
  | ok kind =>
    cases pluginOf job with
    | none =>
      simpa only [Bool.and_true, Bool.true_and] using
        guarded_eq_iff (!deniesAllOrKind policy kind) true
          fun h => by rw [knownKind, h, Bool.true_or]
    | some plugin =>
      exact guarded_eq_iff (!deniesAllOrKind policy kind) (active agentId runtime pauses plugin)
        (@knownKind_of_declares capability inventory plugin kind)

/-- **The session's filters, exactly**: for every stored catalog, policy, capability, inventory,
    runtime and set of pauses, the catalog sent has the wanted Jobs, in the order and with the
    contents stored, if and only if no Job has a kind that is known from elsewhere only. -/
theorem session_filter_exact_iff (store : JobStore) (agentId : String)
    (policy : AgentJobPolicySnapshot) (capability : AgentCapabilitySnapshot)
    (inventory : AgentPluginInventory) (runtime : PluginRuntimeSnapshot)
    (pauses : Pauses) :
    sessionCatalog agentId policy capability inventory runtime pauses store.tables =
        ((store.tables.catalogs.get agentId).map fun revision =>
          ⟨revision, (store.jobs agentId).filter
            (wanted agentId policy capability inventory runtime pauses)⟩) ↔
      (store.tables.catalogs.get agentId ≠ none → ∀ job ∈ store.jobs agentId,
        foreignKind agentId policy capability inventory runtime pauses job = false) := by
  rw [sessionCatalog_eq]
  cases store.tables.catalogs.get agentId with
  | none => simp
  | some revision =>
    have hjobs : ∀ {jobs jobs' : List JobDefinition},
        (some ⟨revision, jobs⟩ : Option ReplaceAllJobs) = some ⟨revision, jobs'⟩ ↔
          jobs = jobs' := by simp
    rw [Option.map_some, Option.map_some, hjobs, filter_eq_filter_iff]
    refine ⟨fun h _ job hjob => (keeps_eq_wanted_iff job).mp (h job hjob),
      fun h job hjob => (keeps_eq_wanted_iff job).mpr (h nofun job hjob)⟩

end Composition

/-! ## 4. A kind that another plugin declares -/

section Foreign

/-- A Job of the given plugin, version 1.0.0. -/
def pluginJob (id : Nat) (pluginId kind : String) : JobDefinition :=
  ⟨Scheduler.Uuid.asBytes id, 1, true, none, none, some ⟨some (.plugin ⟨pluginId, "1.0.0", kind, 1, []⟩)⟩⟩

def installed (pluginId : String) (kinds : List String) : PluginInventoryEntry :=
  ⟨pluginId, "1.0.0", kinds, List.replicate 32 0, 1⟩

/-- A built-in task, and a task of the echo plugin. -/
def twoTasks : JobStore :=
  .ofCalls .lenient [.direct "agent-1" [cpuJob 1 1, pluginJob 2 "plus.echo" "plus.ping.v1"] none]

def allowing : AgentJobPolicySnapshot := ⟨1, false, []⟩

def collecting : AgentCapabilitySnapshot := ⟨1, "0.1.0", ["smalux.collect.cpu.v1"], [1]⟩

/-- The task is one of the ping plugin, not of the echo plugin it names. -/
def echoAndPing : AgentPluginInventory :=
  ⟨1, [installed "plus.echo" ["plus.echo.v1"], installed "plus.ping" ["plus.ping.v1"]]⟩

def echoConfigured : PluginRuntimeSnapshot := ⟨2, [⟨"plus.echo", "1.0.0", 1, [], 1⟩]⟩

/-- It is sent all the same. -/
theorem foreign_kind_is_kept :
    sessionCatalog "agent-1" allowing collecting echoAndPing echoConfigured .empty twoTasks.tables =
        some ⟨1, [cpuJob 1 1, pluginJob 2 "plus.echo" "plus.ping.v1"]⟩ ∧
      (twoTasks.jobs "agent-1").filter
        (wanted "agent-1" allowing collecting echoAndPing echoConfigured .empty) = [cpuJob 1 1] := by
  decide +kernel

end Foreign

end Smalux.Session
