/-
  Subject:   Whether a stored runtime configuration is read back (database/plugin_runtime.rs).

  The rows of all Agents share one primary key: a text that joins the names by colons, which the names
  themselves may contain.

  * `getAgentPluginRuntime` -- what the management side reads;
  * `storeRuntimes_iff` -- which rows are accepted;
  * **`runtimes_read_back_iff`** -- a configuration is stored and read back if the keys of its rows
    are free.
-/
import Mathlib.Data.Prod.Lex
import Smalux.Session.Loop

namespace Smalux.Server

open Lib Lib.Transaction RuntimeTables Table List
open Session (storedRuntimes notAfter)

variable {d : RuntimeTables} {agentId : String} {runtimes : List StoredPluginRuntime}

/-- The revision and the Agent's rows. -/
def getAgentPluginRuntime (d : RuntimeTables) (agentId : String) :
    Option (Nat × List StoredPluginRuntime) :=
  (d.catalogs.get agentId).map fun revision => (revision, storedRuntimes d agentId)

/-- A replacement at the current revision succeeds, leaves the other Agents alone, and is read back
    in order. -/
def RoundTrips (d : RuntimeTables) (agentId : String) (runtimes : List StoredPluginRuntime) : Prop :=
  ∃ revision d', (replaceAgentPluginRuntimeIfRevision agentId runtimes
      (some ((d.catalogs.get agentId).getD 0))).exec engine d = (.ok revision, d') ∧
    RuntimesReplaced agentId runtimes revision d d' ∧
    getAgentPluginRuntime d' agentId = some (revision, sortRuntimes runtimes)

/-- The rows have different keys, none of them that of another Agent's row, and there is a next
    revision. -/
structure KeysFree (d : RuntimeTables) (agentId : String) (runtimes : List StoredPluginRuntime) :
    Prop where
  distinct : (runtimes.map (keyOf agentId)).Nodup
  free : ∀ runtime ∈ runtimes, ∀ row, d.runtimes.get (keyOf agentId runtime) = some row →
    row.agentId = agentId
  next : (d.catalogs.get agentId).getD emptyRuntimeRevision + 1 ≤ maxI64

/-- Rows are accepted whose keys are free. -/
theorem storeRuntimes_iff : ∀ {runtimes : List StoredPluginRuntime} {d : RuntimeTables},
    (∃ d', (storeRuntimes agentId runtimes).exec engine d = (.ok (), d')) ↔
      (runtimes.map (keyOf agentId)).Nodup ∧
        ∀ runtime ∈ runtimes, d.runtimes.get (keyOf agentId runtime) = none
  | [], d => ⟨fun _ => ⟨.nil, by simp⟩, fun _ => ⟨d, rfl⟩⟩
  | runtime :: rest, d => by
    rw [exec_storeRuntimes_cons, map_cons, nodup_cons, forall_mem_cons]
    split
    · rename_i hc
      constructor
      · rintro ⟨_, ⟨⟩⟩
      · intro h
        rw [contains_eq_false_iff.mpr h.2.1] at hc
        cases hc
    · rename_i hc
      have hfree := contains_eq_false_iff.mp (Bool.eq_false_iff.mpr hc)
      have hget : ∀ key, (engine.write d (.runtime ⟨agentId, runtime⟩)).runtimes.get key =
          if key = keyOf agentId runtime then some ⟨agentId, runtime⟩ else d.runtimes.get key :=
        fun key => get_insert ..
      rw [storeRuntimes_iff]
      simp only [hget, hfree, mem_map, not_exists, not_and]
      grind

/-- At the current revision, the replacement comes down to storing the new rows beside those of the
    other Agents. -/
theorem exec_replace_current {next : Nat} {validated : List StoredPluginRuntime}
    (hok : validateRuntimes agentId runtimes = .ok validated)
    (hnext : next = (d.catalogs.get agentId).getD emptyRuntimeRevision + 1)
    (hfits : next ≤ maxI64) :
    ∃ left : Table String AgentPluginRuntime,
      (∀ key row, left.get key = some row ↔
        d.runtimes.get key = some row ∧ row.agentId ≠ agentId) ∧
      (replaceAgentPluginRuntimeIfRevision agentId runtimes
          (some ((d.catalogs.get agentId).getD 0))).exec engine d =
        (storeRuntimes agentId validated >>= fun _ => pure next).exec engine
          ⟨d.catalogs.insert agentId next, left⟩ := by
  obtain ⟨left, hoverlay, hleft⟩ :=
    overlay_deleteRuntimes ⟨d.catalogs.insert agentId next, d.runtimes⟩ agentId
  have hcurrent : (d.catalogs.get agentId).getD 0 ≤ maxI64 := by
    cases hrow : d.catalogs.get agentId with
    | none => exact Nat.zero_le _
    | some =>
      rw [hnext, hrow] at hfits
      exact Nat.le_of_succ_le hfits
  refine ⟨left, hleft, ?_⟩
  unfold replaceAgentPluginRuntimeIfRevision
  rw [hok, Option.getD_some, show runtimeI64 _ _ = .ok _ from runtimeI64_ok_iff.mpr ⟨rfl, hcurrent⟩]
  show (replaceRuntimeAt agentId validated _ (d.catalogs.get agentId)).exec engine d = _
  rw [replaceRuntimeAt, if_neg (by simp), ← hnext,
    show runtimeI64 _ _ = .ok _ from runtimeI64_ok_iff.mpr ⟨rfl, hfits⟩]
  refine ((runtimeRow agentId).exec_claim d next _).trans ?_
  have hpublish : (runtimeRow agentId).publish (d.catalogs.get agentId)
      (some ((d.catalogs.get agentId).getD 0)) next = pure () := by
    cases d.catalogs.get agentId <;> rfl
  rw [hpublish]
  exact congrArg (exec engine (storeRuntimes agentId validated >>= fun _ => pure next)) hoverlay

section Valid

variable (hids : (runtimes.map StoredPluginRuntime.identity).Nodup)
include hids

theorem validateRuntimes_of_valid (hagent : isShort agentId 64 = true)
    (hvalid : ∀ runtime ∈ runtimes, runtime.isValid = true) :
    validateRuntimes agentId runtimes = .ok (sortRuntimes runtimes) := by
  have hperm : (sortRuntimes runtimes).Perm runtimes := perm_insertionSort _ _
  have hpairs : anyPair (fun a b => a.identity = b.identity) (sortRuntimes runtimes) = false := by
    have hnodup := (hperm.map StoredPluginRuntime.identity).nodup_iff.mpr hids
    exact anyPair_eq_false_iff.mpr ((pairwise_map.mp hnodup).imp decide_eq_false).isChain
  have hall : (sortRuntimes runtimes).all StoredPluginRuntime.isValid = true :=
    all_eq_true.mpr fun runtime hin => hvalid runtime (hperm.mem_iff.mp hin)
  unfold validateRuntimes
  rw [hpairs, hall, hagent]
  rfl

/-- Both sides sort by the same order, in which different runtimes have different places. -/
theorem storedRuntimes_eq
    (hrows : ∀ key runtime, d.runtimes.get key = some ⟨agentId, runtime⟩ ↔
      runtime ∈ runtimes ∧ key = keyOf agentId runtime) :
    storedRuntimes d agentId = sortRuntimes runtimes := by
  have hmem : ∀ e ∈ d.runtimes.entries.filter fun e => e.2.agentId = agentId,
      e.2.runtime ∈ runtimes ∧ e = (keyOf agentId e.2.runtime, ⟨agentId, e.2.runtime⟩) := by
    rintro ⟨key, agent, runtime⟩ he
    obtain ⟨hentry, hagent⟩ := mem_filter.mp he
    obtain rfl : agent = agentId := of_decide_eq_true hagent
    obtain ⟨hin, rfl⟩ := (hrows key runtime).mp (get_eq_some_iff.mpr hentry)
    exact ⟨hin, rfl⟩
  have hperm : ((d.runtimes.values.filter fun row => row.agentId = agentId).map
      AgentPluginRuntime.runtime).Perm runtimes := by
    rw [Table.values, filter_map, map_map]
    refine (perm_ext_iff_of_nodup ?_ (List.Nodup.of_map _ hids)).mpr fun runtime => ?_
    · refine ((List.Nodup.of_map _ d.runtimes.nodup).filter _).map_on fun x hx y hy heq => ?_
      rw [(hmem x hx).2, (hmem y hy).2, show x.2.runtime = y.2.runtime from heq]
    · refine ⟨fun h => ?_, fun h => ?_⟩
      · obtain ⟨e, he, rfl⟩ := mem_map.mp h
        exact (hmem e he).1
      · have hin := get_eq_some_iff.mp ((hrows _ _).mpr ⟨h, rfl⟩)
        exact mem_map.mpr ⟨_, mem_filter.mpr ⟨hin, decide_eq_true rfl⟩, rfl⟩
  have hle : ∀ a b : StoredPluginRuntime, identityLe a.identity b.identity = true ↔
      toLex a.identity ≤ toLex b.identity := by
    intro a b
    simp only [identityLe, Bool.or_eq_true, Bool.and_eq_true, decide_eq_true_eq,
      Bool.not_eq_true', decide_eq_false_iff_not, not_lt, Prod.Lex.toLex_le_toLex]
  have hafter : ∀ a b : StoredPluginRuntime, notAfter (a.pluginId, a.pluginVersion)
      (b.pluginId, b.pluginVersion) ↔ toLex a.identity ≤ toLex b.identity :=
    fun _ _ => Prod.Lex.toLex_le_toLex.symm
  unfold storedRuntimes sortRuntimes
  simp only [hle, hafter]
  refine ((perm_insertionSort _ _).trans (hperm.trans
    (perm_insertionSort _ runtimes).symm)).eq_of_pairwise ?_
    (pairwise_insertionSort _ _) (pairwise_insertionSort _ runtimes)
  intro a b ha hb hab hba
  rw [mem_insertionSort] at ha hb
  exact inj_on_of_nodup_map hids (hperm.mem_iff.mp ha) hb
    (toLex.injective (le_antisymm hab hba))

/-- **A runtime configuration is read back** exactly if the keys of its rows are free. -/
theorem runtimes_read_back_iff (d : RuntimeTables) (hagent : isShort agentId 64 = true)
    (hvalid : ∀ runtime ∈ runtimes, runtime.isValid = true) :
    RoundTrips d agentId runtimes ↔ KeysFree d agentId runtimes := by
  have hperm : (sortRuntimes runtimes).Perm runtimes := perm_insertionSort _ _
  have hok := validateRuntimes_of_valid hids hagent hvalid
  obtain ⟨next, hnext⟩ : ∃ next, next = (d.catalogs.get agentId).getD emptyRuntimeRevision + 1 :=
    ⟨_, rfl⟩
  by_cases hfits : next ≤ maxI64
  swap
  · refine ⟨fun ⟨_, _, hexec, hreplaced, _⟩ => ?_, fun h => absurd (hnext ▸ h.next) hfits⟩
    exact absurd (hnext ▸ hreplaced.next ▸ (replacePluginRuntime_ok hexec).2) hfits
  obtain ⟨left, hleft, heq⟩ := exec_replace_current hok hnext hfits
  have hstores : (∃ d', (storeRuntimes agentId (sortRuntimes runtimes)).exec engine
      ⟨d.catalogs.insert agentId next, left⟩ = (.ok (), d')) ↔
      (runtimes.map (keyOf agentId)).Nodup ∧ ∀ runtime ∈ runtimes, ∀ row,
        d.runtimes.get (keyOf agentId runtime) = some row → row.agentId = agentId := by
    rw [storeRuntimes_iff, (hperm.map _).nodup_iff]
    refine and_congr_right fun _ => forall_congr' fun runtime => ?_
    rw [hperm.mem_iff, Option.eq_none_iff_forall_ne_some]
    simp [hleft]
  constructor
  · rintro ⟨revision, d', hexec, -⟩
    obtain ⟨_, stored, hstore, -⟩ := bind_ok_iff.mp (heq.symm.trans hexec)
    obtain ⟨hdistinct, hfree⟩ := hstores.mp ⟨stored, hstore⟩
    exact ⟨hdistinct, hfree, hnext ▸ hfits⟩
  · rintro ⟨hdistinct, hfree, -⟩
    obtain ⟨stored, hstore⟩ := hstores.mpr ⟨hdistinct, hfree⟩
    have hexec := heq.trans (bind_ok_iff.mpr ⟨_, _, hstore, rfl⟩)
    have hreplaced := (replacePluginRuntime_ok hexec).1
    refine ⟨_, stored, hexec, hreplaced, ?_⟩
    rw [getAgentPluginRuntime, hreplaced.catalogs, if_pos rfl, Option.map_some,
      storedRuntimes_eq hids fun key runtime => ?_]
    rw [(storeRuntimes_ok hstore).2]
    constructor
    · rintro (hold | ⟨other, hin, hrow, hkey⟩)
      · exact absurd rfl ((hleft _ _).mp hold).2
      · cases hrow
        exact ⟨hperm.mem_iff.mp hin, hkey⟩
    · exact fun ⟨hin, hkey⟩ => .inr ⟨runtime, hperm.mem_iff.mpr hin, rfl, hkey⟩

end Valid

def runtimeOf (pluginId pluginVersion : String) : StoredPluginRuntime :=
  ⟨pluginId, pluginVersion, List.replicate 32 0, 1, [], 1⟩

theorem one_runtime_is_read_back : RoundTrips .empty "agent" [runtimeOf "p" "1"] :=
  (runtimes_read_back_iff (by decide) .empty (by decide) (by decide)).mpr
    ⟨by decide, by decide, by decide⟩

/-- Two plugins of one Agent, with one key. -/
def joinedAlike : List StoredPluginRuntime := [runtimeOf "p:1" "2", runtimeOf "p" "1:2"]

/-- **Colons in names make keys collide**: the second row is refused, and with it the whole
    configuration. -/
theorem colon_in_name_is_refused : isShort "agent" 64 = true ∧
    (∀ runtime ∈ joinedAlike, runtime.isValid = true) ∧
    (joinedAlike.map StoredPluginRuntime.identity).Nodup ∧ ¬ RoundTrips .empty "agent" joinedAlike := by
  refine ⟨by decide, by decide, by decide, fun ⟨revision, d', hexec, _⟩ => ?_⟩
  have herror : ((replaceAgentPluginRuntimeIfRevision "agent" joinedAlike (some 0)).exec engine
      .empty).1 = .error .constraint := by decide +kernel
  cases herror.symm.trans (congrArg Prod.fst hexec)

end Smalux.Server
