/-
  Subject:   Saves of one file, any of them cut off by a crash.

  A history is the disk and the values a reader may expect: the last save that came to its end and
  those that were cut off after it. Every save is followed by a restart.

  * `History.save` -- one save, cut off after any number of operations (or not at all);
  * `History.save_holds`, `History.save_since` -- what it leaves.
-/
import Mathlib.Logic.Equiv.List
import Smalux.Storage.ReplaceFile

namespace Smalux.Storage

open Lib

/-- `serde_json`, for the documents of one type: what is written can be read. -/
structure SerdeJson (D : Type) where
  toVecPretty : D → List UInt8
  fromSlice : List UInt8 → Option D
  fromSlice_toVecPretty : ∀ document, fromSlice (toVecPretty document) = some document

instance encodableUInt8 : Encodable UInt8 :=
  Encodable.ofLeftInverse UInt8.toNat UInt8.ofNat fun x => by simp

instance encodableChar : Encodable Char :=
  Encodable.ofLeftInverse Char.toNat Char.ofNat fun x => by simp

instance encodableString : Encodable String :=
  Encodable.ofLeftInverse String.toList String.ofList fun x => by simp

/-- There is such a format for every countable type of documents: the number of the document in
    strokes. -/
def SerdeJson.strokes (D : Type) [Encodable D] : SerdeJson D where
  toVecPretty document := List.replicate (Encodable.encode document) 124
  fromSlice bytes := Encodable.decode bytes.length
  fromSlice_toVecPretty document := by simp

/-- One save: the value, after how many file operations it is cut off, and what the crash leaves in
    files that were not synced. -/
structure Attempt (S : Type) where
  value : S
  cutAfter : Nat
  torn : FilePath → List UInt8

structure History (S : Type) where
  disk : Disk FilePath
  /-- the last save that came to its end and those cut off since; empty before the first -/
  since : List S

namespace History

variable {S : Type} (encode : S → List UInt8) {h : History S} {v : Versions} {a : Attempt S}

def empty : History S := ⟨fun _ => none, []⟩

/-- The saves a reader may find after this one. -/
def expect (since : List S) (value : S) : Option (Except IoError Unit) → List S
  | some (.ok _) => [value]
  | _ => if since.isEmpty then [] else value :: since

def save (h : History S) (a : Attempt S) : History S :=
  let cut := (replaceFile (encode a.value)).cut Disk.serve a.cutAfter h.disk
  { disk := cut.2.crash a.torn
    since := expect h.since a.value cut.1 }

variable {encode}

theorem empty_holds : Holds (empty : History S).disk ⟨none, none⟩ := ⟨rfl, rfl⟩

theorem save_holds (hv : Holds h.disk v) (a : Attempt S) :
    Holds (h.save encode a).disk (v.after (encode a.value) a.cutAfter) :=
  let hcut := (replaceFile_cut (encode a.value) hv a.cutAfter).1
  ⟨hcut.main.crash a.torn, hcut.backup.crash a.torn⟩

theorem save_since (hv : Holds h.disk v) (a : Attempt S) : (h.save encode a).since =
      if a.cutAfter < v.length then (if h.since.isEmpty then [] else a.value :: h.since)
      else [a.value] := by
  show expect h.since a.value _ = _
  rw [(replaceFile_cut (encode a.value) hv a.cutAfter).2]
  split <;> rfl

/-- A save that is cut off may be found, and so may what could be found before. -/
theorem mem_since_of_cut (hv : Holds h.disk v) (hne : (h.save encode a).since ≠ [])
    (hcut : a.cutAfter < v.length) :
    h.since ≠ [] ∧ (h.save encode a).since = a.value :: h.since := by
  rw [save_since hv, if_pos hcut] at hne ⊢
  split at hne
  · exact absurd rfl hne
  · rename_i hsome
    rw [if_neg hsome]
    exact ⟨by simpa using hsome, rfl⟩

theorem value_mem_since (hv : Holds h.disk v) (hne : (h.save encode a).since ≠ []) :
    a.value ∈ (h.save encode a).since := by
  by_cases hcut : a.cutAfter < v.length
  · rw [(mem_since_of_cut hv hne hcut).2]
    exact List.mem_cons_self
  · rw [save_since hv, if_neg hcut]
    exact List.mem_cons_self

end History

end Smalux.Storage
