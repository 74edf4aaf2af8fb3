/-
  Subject:   The Agent's identity file under crashes (client/state/file_store.rs).

  * **`identity_recovered_iff`** -- exactly when every crash leaves the last saved state or the one
    being saved.
-/
import Mathlib.Tactic.DeriveEncodable
import Smalux.Agent.State
import Smalux.Storage.Saves

namespace Smalux.Agent

open Lib Storage List

variable (serde : SerdeJson StateDocument)

namespace FileAgentStateStore

def encode (state : PersistedAgentState) : List UInt8 := serde.toVecPretty state.document

/-- The bytes of a file, decoded. -/
def decode (bytes : List UInt8) : Except LoadError (Option PersistedAgentState) :=
  match serde.fromSlice bytes with
  | none => .error .json
  | some document => (PersistedAgentState.ofDocument document).map some

/-- A read of a file: the backup is tried when the main file is missing. -/
def load : FileProgram FilePath (Except LoadError (Option PersistedAgentState)) := do
  match ← fileOp (.read .main) with
  | .ok (.data bytes) => return decode serde bytes
  | .error .notFound =>
    match ← fileOp (.read .backup) with
    | .ok (.data bytes) => return decode serde bytes
    | .error .notFound => return .ok none
    | .error (.other message) => return .error (.message message)
    | .ok _ => return .error .json
  | .error (.other message) => return .error (.message message)
  | .ok _ => return .error .json

/-- `save`: the file operations. -/
def save (state : PersistedAgentState) : FileProgram FilePath (Except IoError Unit) :=
  replaceFile (encode serde state)

@[simp] theorem decode_encode (state : PersistedAgentState) :
    decode serde (encode serde state) = .ok (some state) := by
  simp [decode, encode, serde.fromSlice_toVecPretty, PersistedAgentState.ofDocument_document,
    Except.map]

/-- What `load` gives on these versions. -/
def loads (v : Versions) : Except LoadError (Option PersistedAgentState) :=
  match v.main, v.backup with
  | some bytes, _ => decode serde bytes
  | none, some bytes => decode serde bytes
  | none, none => .ok none

theorem load_value {disk : Disk FilePath} (h : Holds disk v) :
    (load serde).value disk = loads serde v := by
  obtain ⟨main, backup⟩ := v
  have hm : disk .main = main.map fun bytes => ⟨bytes, true⟩ := h.main
  have hb : disk .backup = backup.map fun bytes => ⟨bytes, true⟩ := h.backup
  cases main with
  | some =>
    simp [FileProgram.value, load, fileOp, Client.exec, bind, Client.bind, pure, Disk.serve, loads,
      Disk.serve, hm]
  | none =>
    cases backup <;>
      simp [FileProgram.value, load, fileOp, Client.exec, bind, Client.bind, pure, Disk.serve,
        loads, hm, hb]

/-! ## Saves, crashes and restarts -/

/-- One save, cut off or not, and a restart. -/
def step (h : History PersistedAgentState) (a : Attempt PersistedAgentState) :
    History PersistedAgentState := h.save (encode serde) a

/-- Once a save has come to its end, `load` gives its state or that of a save cut off since. -/
def Recovers (h : History PersistedAgentState) : Prop :=
  h.since ≠ [] → ∃ state ∈ h.since, (load serde).value h.disk = .ok (some state)

/-- Once a save has come to its end, each save is all or nothing: a crash leaves what `load` gave
    before, or the state being saved. -/
def AllOrNothing (h : History PersistedAgentState) (a : Attempt PersistedAgentState) : Prop :=
  h.since ≠ [] →
    (load serde).value (step serde h a).disk = (load serde).value h.disk ∨
      (load serde).value (step serde h a).disk = .ok (some a.value)

/-- Once a save has come to its end, a save that finds no main file is not cut off between the
    removal of the backup and the renaming of the new file. -/
def Careful (h : History PersistedAgentState) (a : Attempt PersistedAgentState) : Prop :=
  h.since ≠ [] → h.disk .main = none → a.cutAfter ≠ 5 ∧ a.cutAfter ≠ 6

/-- A reader finds the state of `expected`. -/
def Shows (v : Versions) (expected : PersistedAgentState) : Prop :=
  v.main = some (encode serde expected) ∨ v.main = none ∧ v.backup = some (encode serde expected)

/-- The files are safe, and show a state that may be expected. -/
structure Kept (h : History PersistedAgentState) : Prop where
  intro ::
  found : ∃ v, Holds h.disk v ∧ (h.since ≠ [] → ∃ state ∈ h.since, Shows serde v state)

variable {serde} {v : Versions} {h : History PersistedAgentState} {a : Attempt PersistedAgentState}

theorem Shows.loads {state : PersistedAgentState} (h : Shows serde v state) :
    loads serde v = .ok (some state) := by
  obtain ⟨main, backup⟩ := v
  rcases h with h | ⟨hmain, hbackup⟩
  · obtain rfl : main = _ := h
    exact decode_encode serde state
  · obtain rfl : main = none := hmain
    obtain rfl : backup = _ := hbackup
    exact decode_encode serde state

/-- **One replacement**, cut off anywhere but in the gap: a reader finds what it found before, or
    the new state; the new state if it came to its end. -/
theorem Shows.after {old : PersistedAgentState} (h : Shows serde v old)
    (state : PersistedAgentState) {k : Nat} (hgap : v.main = none → k ≠ 5 ∧ k ≠ 6) :
    Shows serde (v.after (encode serde state) k) old ∨
      Shows serde (v.after (encode serde state) k) state := by
  obtain ⟨main, backup⟩ := v
  unfold Versions.after
  split
  · exact .inl h
  · rcases h with h | ⟨hmain, hbackup⟩
    · obtain rfl : main = _ := h
      dsimp only
      split
      · exact .inl (.inl rfl)
      · split
        · exact .inl (.inr ⟨rfl, rfl⟩)
        · split <;> exact .inr (.inl rfl)
    · obtain rfl : main = none := hmain
      obtain ⟨h5, h6⟩ := hgap rfl
      rw [if_neg (by omega)]
      exact .inr (.inl rfl)

/-- A replacement that came to its end shows its state. -/
theorem shows_finished (state : PersistedAgentState) {k : Nat} (hk : v.length ≤ k) :
    Shows serde (v.after (encode serde state) k) state := by
  obtain ⟨main, backup⟩ := v
  cases main with
  | none =>
    have hk : 8 ≤ k := hk
    rw [Versions.after, if_neg (by omega)]
    rw [if_neg (by omega)]
    exact .inl rfl
  | some =>
    have hk : 9 ≤ k := hk
    rw [Versions.after, if_neg (by omega)]
    dsimp only
    rw [if_neg (by omega), if_neg (by omega), if_neg (by omega)]
    exact .inl rfl

theorem careful_versions (hv : Holds h.disk v) (hne : h.since ≠ []) (hcareful : Careful h a) :
    v.main = none → a.cutAfter ≠ 5 ∧ a.cutAfter ≠ 6 := by
  intro hmain
  refine hcareful hne ?_
  have hdisk : h.disk .main = v.main.map fun bytes => ⟨bytes, true⟩ := hv.main
  rw [hdisk, hmain]
  rfl

/-- **One careful save** keeps a state to be found. -/
theorem Kept.step (hi : Kept serde h) (hcareful : Careful h a) : Kept serde (step serde h a) := by
  obtain ⟨v, hv, hshows⟩ := hi.found
  refine ⟨_, History.save_holds hv a, fun hne => ?_⟩
  by_cases hcut : a.cutAfter < v.length
  · obtain ⟨hbefore, hsince⟩ := History.mem_since_of_cut hv hne hcut
    obtain ⟨old, hold, hshow⟩ := hshows hbefore
    show ∃ state ∈ (h.save (encode serde) a).since, _
    rw [hsince]
    rcases hshow.after a.value (careful_versions hv hbefore hcareful) with hshow | hshow
    · exact ⟨old, mem_cons_of_mem _ hold, hshow⟩
    · exact ⟨a.value, mem_cons_self, hshow⟩
  · exact ⟨a.value, History.value_mem_since hv hne, shows_finished a.value (Nat.le_of_not_lt hcut)⟩

theorem Kept.recovers (hi : Kept serde h) : Recovers serde h := by
  obtain ⟨v, hv, hshows⟩ := hi.found
  intro hne
  obtain ⟨state, hstate, hshow⟩ := hshows hne
  exact ⟨state, hstate, (load_value serde hv).trans hshow.loads⟩

theorem Kept.allOrNothing (hi : Kept serde h) (hcareful : Careful h a) : AllOrNothing serde h a := by
  obtain ⟨v, hv, hshows⟩ := hi.found
  intro hne
  obtain ⟨old, -, hshow⟩ := hshows hne
  have hafter : (load serde).value (FileAgentStateStore.step serde h a).disk =
      loads serde (v.after (encode serde a.value) a.cutAfter) :=
    load_value serde (History.save_holds hv a)
  rw [load_value serde hv, hafter, hshow.loads]
  rcases hshow.after a.value (careful_versions hv hne hcareful) with hsame | hnew
  · exact .inl hsame.loads
  · exact .inr hnew.loads

/-- **In the gap there is no file left**: neither main file nor backup. -/
theorem careful_of_recovers (hi : Kept serde h)
    (hr : Recovers serde (step serde h a)) : Careful h a := by
  obtain ⟨v, hv, -⟩ := hi.found
  intro hne hmain
  refine Classical.byContradiction fun hgap => ?_
  have hgap : a.cutAfter = 5 ∨ a.cutAfter = 6 := by omega
  have hnone : v.main = none := by
    have hdisk : h.disk .main = v.main.map fun bytes => ⟨bytes, true⟩ := hv.main
    rw [hmain] at hdisk
    exact Option.map_eq_none_iff.mp hdisk.symm
  have hcut : a.cutAfter < v.length := by
    rw [Versions.length, hnone]
    rcases hgap with h | h <;> rw [h] <;> decide
  have hempty : v.after (encode serde a.value) a.cutAfter = ⟨none, none⟩ := by
    rw [Versions.after, if_neg (by omega), hnone]
    exact if_pos (by omega)
  have hsince : (h.save (encode serde) a).since = a.value :: h.since := by
    rw [History.save_since hv, if_pos hcut, if_neg (by simpa using hne)]
  obtain ⟨state, -, hload⟩ := hr (by
    show (h.save (encode serde) a).since ≠ []
    rw [hsince]
    exact cons_ne_nil _ _)
  have hvalue : (load serde).value (step serde h a).disk = loads serde ⟨none, none⟩ :=
    hempty ▸ load_value serde (History.save_holds hv a)
  rw [hvalue] at hload
  cases hload

/-- **Crash safety of the identity file, exactly**: over every sequence of saves, each cut off
    anywhere or not at all, `load` always gives the last saved state or one being saved since if and
    only if no save that finds no main file is cut off between the removal of the backup and the
    renaming of the new file. Each save is then all or nothing. -/
theorem identity_recovered_iff (serde : SerdeJson StateDocument)
    (attempts : List (Attempt PersistedAgentState)) :
    (Throughout (FileAgentStateStore.step serde) (Recovers serde) .empty attempts ↔
      Along (FileAgentStateStore.step serde) Careful .empty attempts) ∧
    (Along (FileAgentStateStore.step serde) Careful .empty attempts →
      Along (FileAgentStateStore.step serde) (AllOrNothing serde) .empty attempts) := by
  have hempty : Kept serde .empty := ⟨_, History.empty_holds, fun h => absurd rfl h⟩
  refine ⟨?_, fun h => ?_⟩
  · exact throughout_iff_along (fun _ _ hi hc => Kept.step hi hc) (fun _ hi => hi.recovers)
      (fun _ _ hi hr => careful_of_recovers hi hr) hempty
  · exact along_of_invariant (fun _ _ hi hc => Kept.step hi hc)
      (fun _ _ hi hc => Kept.allOrNothing hi hc) hempty h

/-- A save of an identity of one repeated byte, cut off after `k` operations. -/
def saveOf (byte : UInt8) (k : Nat) : Attempt PersistedAgentState :=
  ⟨.identityPrepared (Rotation.identityOf byte), k, fun _ => []⟩

/-- A save that comes to its end, one cut off between its two renames, and one cut off right after
    it has removed the backup, in any format. -/
theorem lost_after_two_crashes (serde : SerdeJson StateDocument) :
    ¬ Recovers serde (run (step serde) .empty
      [saveOf 1 9, saveOf 2 7, saveOf 3 5]) := by
  intro hr
  have h0 := History.empty_holds (S := PersistedAgentState)
  have h1 : Holds (step serde .empty (saveOf 1 9)).disk ⟨some _, none⟩ :=
    History.save_holds h0 (saveOf 1 9)
  have h2 : Holds (step serde _ (saveOf 2 7)).disk ⟨none, some _⟩ :=
    History.save_holds h1 (saveOf 2 7)
  have h3 : Holds (step serde _ (saveOf 3 5)).disk ⟨none, none⟩ :=
    History.save_holds h2 (saveOf 3 5)
  obtain ⟨state, -, hload⟩ := hr (cons_ne_nil _ _)
  have hvalue : (load serde).value (step serde _ (saveOf 3 5)).disk = .ok none :=
    load_value serde h3
  exact absurd (hvalue.symm.trans hload) (by simp)

end FileAgentStateStore

deriving instance Encodable for StoredRegistration

deriving instance Encodable for StoredAgentState

deriving instance Encodable for StateDocument

/-- **A lost identity**: a save comes to its end, the next is cut off between its two renames, and a
    third right after it has removed the backup. Nothing is left to load. -/
theorem second_crash_loses_identity :
    ¬ Throughout (FileAgentStateStore.step (.strokes StateDocument))
      (FileAgentStateStore.Recovers (.strokes StateDocument)) .empty
      [FileAgentStateStore.saveOf 1 9, FileAgentStateStore.saveOf 2 7,
        FileAgentStateStore.saveOf 3 5] :=
  fun h => FileAgentStateStore.lost_after_two_crashes _ (h _ (prefix_refl _))

end Smalux.Agent
