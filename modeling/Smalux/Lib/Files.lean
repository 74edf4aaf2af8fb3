/-
  Subject:   Files that survive a crash.

  A file system maps paths to files. Removing and renaming are atomic and survive; what is written
  survives once it is synced, before that a crash may leave anything in the file. A program over
  files is a `Client` of the file system; cut off after some of its operations it has crashed there.

  * `Disk.Safe` -- a path whose contents a crash does not touch, with its rules.
-/
import Mathlib.Logic.Function.Basic
import Smalux.Lib.Client

namespace Lib

/-- Contents, and whether they have been synced. -/
structure File where
  data : List UInt8
  synced : Bool
  deriving DecidableEq, Repr

abbrev Disk (P : Type) := P → Option File

inductive IoError where
  | notFound
  | other (message : String)
  deriving DecidableEq, Repr

/-- The operations on files; a path stands for the open file as well. -/
inductive FileOp (P : Type) where
  | createDir
  /-- open for writing, truncated -/
  | create (path : P)
  | write (path : P) (data : List UInt8)
  | sync (path : P)
  | remove (path : P)
  | exists (path : P)
  | rename (source target : P)
  | read (path : P)

inductive FileAnswer where
  | done
  | found (yes : Bool)
  | data (bytes : List UInt8)
  deriving DecidableEq, Repr

namespace Disk

variable {P : Type} [DecidableEq P]

def serve (disk : Disk P) : FileOp P → Except IoError FileAnswer × Disk P
  | .createDir => (.ok .done, disk)
  | .create path => (.ok .done, Function.update disk path (some ⟨[], false⟩))
  | .write path data =>
    match disk path with
    | none => (.error .notFound, disk)
    | some file => (.ok .done, Function.update disk path (some ⟨file.data ++ data, false⟩))
  | .sync path =>
    match disk path with
    | none => (.error .notFound, disk)
    | some file => (.ok .done, Function.update disk path (some ⟨file.data, true⟩))
  | .remove path =>
    match disk path with
    | none => (.error .notFound, disk)
    | some _ => (.ok .done, Function.update disk path none)
  | .exists path => (.ok (.found (disk path).isSome), disk)
  | .rename source target =>
    match disk source with
    | none => (.error .notFound, disk)
    | some file =>
      (.ok .done, Function.update (Function.update disk target (some file)) source none)
  | .read path =>
    match disk path with
    | none => (.error .notFound, disk)
    | some file => (.ok (.data file.data), disk)

/-- After a crash a file that was not synced holds anything (`torn`). -/
def crash (torn : P → List UInt8) (disk : Disk P) : Disk P := fun path =>
  (disk path).map fun file => if file.synced then file else ⟨torn path, true⟩

/-- What `path` holds, if a crash cannot change it. -/
def Safe (disk : Disk P) (path : P) (data : Option (List UInt8)) : Prop :=
  disk path = data.map fun bytes => ⟨bytes, true⟩

omit [DecidableEq P] in
theorem Safe.crash {disk : Disk P} {path : P} {data : Option (List UInt8)} (h : disk.Safe path data)
    (torn : P → List UInt8) : (disk.crash torn).Safe path data := by
  unfold Safe at h ⊢
  rw [Disk.crash, h]
  cases data <;> rfl

end Disk

/-- A program over files, and one operation of it. -/
abbrev FileProgram (P α : Type) := Client (FileOp P) (Except IoError FileAnswer) α

def fileOp {P : Type} (op : FileOp P) : FileProgram P (Except IoError FileAnswer) :=
  .ask op .done

/-- The value of a program that is not disturbed. -/
def FileProgram.value {P α : Type} [DecidableEq P] (p : FileProgram P α) (disk : Disk P) : α :=
  (p.exec Disk.serve (fun disk (_ : Unit) => disk) [] disk).1

section Cut

variable {P α : Type} [DecidableEq P] (op : FileOp P)
  (next : Except IoError FileAnswer → FileProgram P α) (disk : Disk P) (k : Nat)

@[simp] theorem cut_fileOp_succ : (fileOp op >>= next).cut Disk.serve (k + 1) disk =
      (next (disk.serve op).1).cut Disk.serve k (disk.serve op).2 := rfl

end Cut

end Lib
