/-
  Subject:   How the Agent replaces a file: a new file, a backup, two renames.

  `FileAgentStateStore::save` (client/state/file_store.rs) and `RemoteJobPolicyManager::persist`
  (remote_jobs/policy.rs) make the same file operations in the same order; they are one program
  here, over the three paths of the file.

  * `replaceFile` -- the program, error paths included;
  * **`replaceFile_cut`** -- what main file and backup hold if it is cut off after any number of
    operations (`Versions.after`).
-/
import Smalux.Lib.Files

namespace Smalux.Storage

open Lib Function Disk

/-- The file, and the two beside it. -/
inductive FilePath where
  | main
  | new
  | backup
  deriving DecidableEq, Repr

/-- `?` on an operation. -/
def orReturn {P : Type} (op : FileOp P)
    (next : FileAnswer → FileProgram P (Except IoError Unit)) :
    FileProgram P (Except IoError Unit) := do
  match ← fileOp op with
  | .error e => return .error e
  | .ok answer => next answer

/-- The new file is in place of the old: the backup goes; if it could not be put there, the backup
    comes back. -/
def finishReplace (renamed : Except IoError FileAnswer) :
    FileProgram FilePath (Except IoError Unit) := do
  match renamed with
  | .ok _ =>
    let _ ← fileOp (.remove .backup)
    return .ok ()
  | .error e =>
    orReturn (.exists .backup) fun answer => do
      if answer = .found true then
        let _ ← fileOp (.rename .backup .main)
      return .error e

def moveIn : FileProgram FilePath (Except IoError Unit) := do
  let renamed ← fileOp (.rename .new .main)
  finishReplace renamed

/-- The new file is written: it takes the place of the main file. -/
def swapIn : FileProgram FilePath (Except IoError Unit) := do
  let _ ← fileOp (.remove .backup)
  orReturn (.exists .main) fun answer =>
    if answer = .found true then
      orReturn (.rename .main .backup) fun _ => moveIn
    else moveIn

/-- The file operations of a save. -/
def replaceFile (bytes : List UInt8) : FileProgram FilePath (Except IoError Unit) :=
  orReturn .createDir fun _ =>
  orReturn (.create .new) fun _ =>
  orReturn (.write .new bytes) fun _ =>
  orReturn (.sync .new) fun _ => swapIn

/-- What a reader can find: the main file and its backup. -/
structure Versions where
  main : Option (List UInt8)
  backup : Option (List UInt8)
  deriving DecidableEq, Repr

/-- After `k` operations of the replacement by `bytes`. -/
def Versions.after (v : Versions) (bytes : List UInt8) (k : Nat) : Versions :=
  if k ≤ 4 then v
  else
    match v.main with
    | some old =>
      if k ≤ 6 then ⟨some old, none⟩
      else if k = 7 then ⟨none, some old⟩
      else if k = 8 then ⟨some bytes, some old⟩
      else ⟨some bytes, none⟩
    | none => if k ≤ 6 then ⟨none, none⟩ else ⟨some bytes, none⟩

/-- How many operations a whole replacement takes. -/
def Versions.length (v : Versions) : Nat := if v.main.isSome then 9 else 8

/-- A disk with these versions, safe from a crash. -/
structure Holds (disk : Disk FilePath) (v : Versions) : Prop where
  main : disk.Safe .main v.main
  backup : disk.Safe .backup v.backup

/-! ## What a replacement that is cut off leaves -/

section Cut

variable {disk : Disk FilePath} {v : Versions} (h : Holds disk v) (bytes : List UInt8)

theorem Holds.update_new (file : Option File) (h : Holds disk v) :
    Holds (update disk .new file) v := ⟨h.main, h.backup⟩

/-- The first four operations write the new file. -/
theorem replaceFile_written (disk : Disk FilePath) (k : Nat) :
    (replaceFile bytes).cut serve (k + 4) disk =
      swapIn.cut serve k (update disk .new (some ⟨bytes, true⟩)) := by
  simp [replaceFile, orReturn, serve]

include h in
/-- Cut off while it writes the new file, a replacement has changed nothing a reader sees. -/
theorem replaceFile_unwritten {k : Nat} (hk : k < 4) :
    Holds ((replaceFile bytes).cut serve k disk).2 v ∧
      ((replaceFile bytes).cut serve k disk).1 = none := by
  match k, hk with
  | 0, _ => exact ⟨h, rfl⟩
  | 1, _ => exact ⟨h, rfl⟩
  | 2, _ => exact ⟨h.update_new _, rfl⟩
  | 3, _ =>
    refine ⟨?_, rfl⟩
    exact (h.update_new _).update_new _

/-- Removing the backup, whether there is one or not. -/
theorem removeBackup (h : Holds disk v) : Holds (disk.serve (.remove .backup)).2 ⟨v.main, none⟩ ∧
      (disk.serve (.remove .backup)).2 .new = disk .new := by
  cases hb : disk .backup with
  | none =>
    rw [show (disk.serve (.remove .backup)).2 = disk by simp [serve, hb]]
    exact ⟨⟨h.main, hb⟩, rfl⟩
  | some =>
    rw [show (disk.serve (.remove .backup)).2 = update disk .backup none by
      simp [serve, hb]]
    exact ⟨⟨h.main, update_self ..⟩, rfl⟩

/-- The last two operations: the new file becomes the main file, the backup goes. -/
theorem moveIn_cut {backup : Option (List UInt8)} (h : Holds disk ⟨none, backup⟩)
    (hnew : disk .new = some ⟨bytes, true⟩) (k : Nat) : Holds (moveIn.cut serve k disk).2
        (if k = 0 then ⟨none, backup⟩ else if k = 1 then ⟨some bytes, backup⟩
          else ⟨some bytes, none⟩) ∧
      (moveIn.cut serve k disk).1 = if k < 2 then none else some (.ok ()) := by
  have hrename : disk.serve (.rename .new .main) =
      (.ok .done, update (update disk .main (some ⟨bytes, true⟩)) .new none) := by
    simp [serve, hnew]
  have hmoved : Holds
      (update (update disk .main (some ⟨bytes, true⟩)) .new none)
      ⟨some bytes, backup⟩ := ⟨rfl, h.backup⟩
  match k with
  | 0 => exact ⟨h, rfl⟩
  | 1 =>
    rw [moveIn, cut_fileOp_succ, hrename]
    exact ⟨hmoved, rfl⟩
  | k + 2 =>
    rw [moveIn, cut_fileOp_succ, hrename]
    refine ⟨?_, ?_⟩
    · exact (removeBackup hmoved).1
    · rfl

/-- The second half of a replacement, cut off after `k` operations. -/
theorem swapIn_cut (h : Holds disk v) (hnew : disk .new = some ⟨bytes, true⟩) (k : Nat) :
    Holds (swapIn.cut serve k disk).2 (v.after bytes (k + 4)) ∧
      (swapIn.cut serve k disk).1 = if k + 4 < v.length then none else some (.ok ()) := by
  obtain ⟨hremoved, hkeep⟩ := removeBackup h
  rw [hnew] at hkeep
  obtain ⟨main, backup⟩ := v
  match k with
  | 0 =>
    refine ⟨h, ?_⟩
    cases main <;> rfl
  | 1 =>
    cases main <;> exact ⟨hremoved, rfl⟩
  | k + 2 =>
    rw [swapIn, cut_fileOp_succ]
    generalize (disk.serve (.remove .backup)).2 = removed at hremoved hkeep ⊢
    have hmain : removed .main = main.map fun bytes => ⟨bytes, true⟩ := hremoved.main
    rw [orReturn, cut_fileOp_succ]
    cases main with
    | none =>
      have hnone : (removed.serve (.exists .main)) = (.ok (.found false), removed) := by
        simp [serve, hmain]
      rw [hnone]
      obtain ⟨hholds, hvalue⟩ := moveIn_cut bytes hremoved hkeep k
      match k with
      | 0 => exact ⟨hholds, hvalue⟩
      | 1 => exact ⟨hholds, hvalue⟩
      | k + 2 => exact ⟨hholds, hvalue⟩
    | some old =>
      have hsome : (removed.serve (.exists .main)) = (.ok (.found true), removed) := by
        simp [serve, hmain]
      rw [hsome]
      match k with
      | 0 => exact ⟨hremoved, rfl⟩
      | k + 1 =>
        have hrename : removed.serve (.rename .main .backup) =
            (.ok .done,
              update (update removed .backup (some ⟨old, true⟩)) .main none) := by
          simp [serve, hmain]
        have hmoved : Holds
            (update (update removed .backup (some ⟨old, true⟩)) .main none)
            ⟨none, some old⟩ := ⟨rfl, rfl⟩
        obtain ⟨hholds, hvalue⟩ := moveIn_cut bytes hmoved hkeep k
        simp only [↓reduceIte, orReturn, cut_fileOp_succ, hrename]
        match k with
        | 0 => exact ⟨hholds, hvalue⟩
        | 1 => exact ⟨hholds, hvalue⟩
        | k + 2 => exact ⟨hholds, hvalue⟩

/-- **What main file and backup hold** when a replacement is cut off after `k` operations, and
    whether it had come to its end. -/
theorem replaceFile_cut (h : Holds disk v) (k : Nat) :
    Holds ((replaceFile bytes).cut serve k disk).2 (v.after bytes k) ∧
      ((replaceFile bytes).cut serve k disk).1 =
        if k < v.length then none else some (.ok ()) := by
  by_cases hk : k < 4
  · have hlength : k < v.length := by
      unfold Versions.length
      split <;> omega
    rw [if_pos hlength, Versions.after, if_pos (by omega)]
    exact replaceFile_unwritten h bytes hk
  · obtain ⟨k, rfl⟩ : ∃ n, k = n + 4 := ⟨k - 4, by omega⟩
    rw [replaceFile_written]
    exact swapIn_cut bytes (h.update_new _) (update_self ..) k

end Cut

end Smalux.Storage
