/-
  Subject:   The policy file under crashes (remote_jobs/policy.rs `load_file`, `persist`).

  The policy is replaced as the identity file is, but the loader does not look at the backup: a
  missing file is a fresh installation.

  * **`policy_kept_iff`** -- exactly when every update is all or nothing.
-/
import Mathlib.Tactic.DeriveEncodable
import Smalux.Remote.Policy
import Smalux.Storage.Saves

namespace Smalux.Remote

open Lib Storage List

structure RemoteJobPolicySnapshot where
  revision : Nat
  denyAll : Bool
  deniedTaskKinds : List String
  deriving DecidableEq, Repr, Encodable

def policyFormatVersion : Nat := 1

structure PolicyDocument where
  formatVersion : Nat
  policy : RemoteJobPolicySnapshot
  deriving DecidableEq, Repr, Encodable

inductive PolicyFileError where
  | json
  | message (text : String)
  deriving DecidableEq, Repr

namespace RemoteJobPolicy

def snapshot (policy : RemoteJobPolicy) : RemoteJobPolicySnapshot :=
  ⟨policy.revision, policy.denyAll, policy.deniedTaskKinds⟩

/-- A kind of white space only (`char::is_whitespace`). -/
def isBlank (kind : String) : Bool :=
  kind.toList.all fun c =>
    c = ' ' || (9 ≤ c.toNat && c.toNat ≤ 13) || c.toNat = 0x85 || c.toNat = 0xA0 ||
      c.toNat = 0x1680 || (0x2000 ≤ c.toNat && c.toNat ≤ 0x200A) || c.toNat = 0x2028 ||
      c.toNat = 0x2029 || c.toNat = 0x202F || c.toNat = 0x205F || c.toNat = 0x3000

def fromSnapshot (snapshot : RemoteJobPolicySnapshot) : Except PolicyFileError RemoteJobPolicy :=
  if ¬ snapshot.deniedTaskKinds.Nodup then
    .error (.message "Agent Job policy contains duplicate Task kinds")
  else if snapshot.deniedTaskKinds.any isBlank then
    .error (.message "Agent Job policy contains an empty Task kind")
  else .ok ⟨snapshot.revision, snapshot.denyAll, snapshot.deniedTaskKinds⟩

end RemoteJobPolicy

namespace RemoteJobPolicyManager

variable (serde : SerdeJson PolicyDocument) {disk : Disk FilePath} {h : History RemoteJobPolicy}
  {a : Attempt RemoteJobPolicy} {v : Versions}

def encode (policy : RemoteJobPolicy) : List UInt8 :=
  serde.toVecPretty ⟨policyFormatVersion, policy.snapshot⟩

def decodePolicyDocument (bytes : List UInt8) : Except PolicyFileError RemoteJobPolicy :=
  match serde.fromSlice bytes with
  | none => .error .json
  | some document =>
    if document.formatVersion ≠ policyFormatVersion then
      .error (.message ("unsupported Agent Job policy format version " ++
        toString document.formatVersion))
    else RemoteJobPolicy.fromSnapshot document.policy

/-- The policy a start finds: a missing file is the default policy. -/
def loadFile : FileProgram FilePath (Except PolicyFileError RemoteJobPolicy) := do
  match ← fileOp (.read .main) with
  | .ok (.data bytes) => return decodePolicyDocument serde bytes
  | .error .notFound => return .ok {}
  | .error (.other text) => return .error (.message text)
  | .ok _ => return .error .json

/-- `persist`: the file operations. -/
def persist (policy : RemoteJobPolicy) : FileProgram FilePath (Except IoError Unit) :=
  replaceFile (encode serde policy)

/-- **A stored policy is read back** or, if it names a kind twice or a blank one, refused. -/
theorem decode_encode (policy : RemoteJobPolicy) :
    decodePolicyDocument serde (encode serde policy) = .ok policy ∨
      ∃ e, decodePolicyDocument serde (encode serde policy) = .error e := by
  simp only [decodePolicyDocument, encode, serde.fromSlice_toVecPretty, ne_eq, not_true_eq_false,
    ↓reduceIte, RemoteJobPolicy.fromSnapshot]
  split
  · exact .inr ⟨_, rfl⟩
  · split
    · exact .inr ⟨_, rfl⟩
    · exact .inl rfl

def loads (v : Versions) : Except PolicyFileError RemoteJobPolicy :=
  match v.main with
  | some bytes => decodePolicyDocument serde bytes
  | none => .ok {}

theorem loadFile_value (h : Storage.Holds disk v) :
    (loadFile serde).value disk = loads serde v := by
  obtain ⟨main, backup⟩ := v
  have hm : disk .main = main.map fun bytes => ⟨bytes, true⟩ := h.main
  cases main <;>
    simp [FileProgram.value, loadFile, fileOp, Client.exec, bind, Client.bind, pure, Disk.serve,
      loads, hm]

/-! ## Updates, crashes and restarts -/

/-- One update, cut off or not, and a restart. -/
def step (h : History RemoteJobPolicy) (a : Attempt RemoteJobPolicy) : History RemoteJobPolicy :=
  h.save (encode serde) a

/-- **An update is all or nothing**: a start finds what it would have found before, the new policy,
    or an error; and where there was a policy file, it does not fall back to the default. -/
structure AllOrNothing (h : History RemoteJobPolicy) (a : Attempt RemoteJobPolicy) : Prop where
  intro ::
  found : (loadFile serde).value (step serde h a).disk = (loadFile serde).value h.disk ∨
    (loadFile serde).value (step serde h a).disk = .ok a.value ∨
      ∃ e, (loadFile serde).value (step serde h a).disk = .error e
  kept : (h.disk .main).isSome → ((step serde h a).disk .main).isSome

/-- An update that finds a policy file is not cut off between its two renames. -/
def Careful (h : History RemoteJobPolicy) (a : Attempt RemoteJobPolicy) : Prop :=
  (h.disk .main).isSome → a.cutAfter ≠ 7

variable {serde}

/-- **The policy file after a cut**: none between the renames, else the old one or the new one. -/
theorem after_main (v : Versions) (bytes : List UInt8) (k : Nat) :
    if v.main.isSome ∧ k = 7 then (v.after bytes k).main = none
    else (v.after bytes k).main = v.main ∨ (v.after bytes k).main = some bytes := by
  obtain ⟨main, backup⟩ := v
  unfold Versions.after
  cases main with
  | none =>
    by_cases h₄ : k ≤ 4 <;> by_cases h₆ : k ≤ 6 <;> simp [h₄, h₆]
  | some =>
    by_cases h₇ : k = 7
    · simp [h₇]
    · by_cases h₄ : k ≤ 4 <;> by_cases h₆ : k ≤ 6 <;> by_cases h₈ : k = 8 <;> simp [h₄, h₆, h₇, h₈]

theorem isSome_main (h : Storage.Holds disk v) : (disk .main).isSome = v.main.isSome := by
  rw [show disk .main = _ from h.main, Option.isSome_map]

/-- **One update is all or nothing exactly if it is careful.** -/
theorem allOrNothing_iff (hi : ∃ v, Storage.Holds h.disk v) :
    AllOrNothing serde h a ↔ Careful h a := by
  obtain ⟨v, hv⟩ := hi
  have hafter : Storage.Holds (step serde h a).disk (v.after (encode serde a.value) a.cutAfter) :=
    History.save_holds hv a
  have hmain := after_main v (encode serde a.value) a.cutAfter
  unfold Careful
  rw [isSome_main hv]
  constructor
  · rintro ⟨-, hkept⟩ hsome hcut
    have := hkept (isSome_main hv ▸ hsome)
    rw [isSome_main hafter] at this
    rw [if_pos ⟨hsome, hcut⟩] at hmain
    simp [hmain] at this
  · intro hcareful
    rw [if_neg fun hcut => hcareful hcut.1 hcut.2] at hmain
    refine ⟨?_, ?_⟩
    · rw [loadFile_value serde hafter, loadFile_value serde hv]
      unfold loads
      rcases hmain with hsame | hnew
      · exact .inl (by rw [hsame])
      · rw [hnew]
        exact .inr (decode_encode serde a.value)
    · rw [isSome_main hafter, isSome_main hv]
      rcases hmain with hsame | hnew
      · exact fun hsome => hsame ▸ hsome
      · exact fun _ => hnew ▸ rfl

/-- **Fail-safe policy persistence, exactly**: over every sequence of updates, each cut off anywhere
    or not at all, all updates are all or nothing if and only if none that finds a policy file is
    cut off between its two renames. -/
theorem policy_kept_iff (serde : SerdeJson PolicyDocument)
    (updates : List (Attempt RemoteJobPolicy)) :
    Along (step serde) (AllOrNothing serde) .empty updates ↔
      Along (step serde) Careful .empty updates := by
  -- the files are safe after every update, careful or not
  have hstep (ok : Prop) (h : History RemoteJobPolicy) (a : Attempt RemoteJobPolicy)
      (hi : ∃ v, Storage.Holds h.disk v) (_ : ok) : ∃ v, Storage.Holds (step serde h a).disk v :=
    hi.imp' _ fun _ hv => History.save_holds hv a
  exact ⟨along_of_invariant (fun _ _ => hstep _ _ _) (fun _ _ hi => (allOrNothing_iff hi).mp)
      ⟨_, History.empty_holds⟩,
    along_of_invariant (fun _ _ => hstep _ _ _) (fun _ _ hi => (allOrNothing_iff hi).mpr)
      ⟨_, History.empty_holds⟩⟩

/-- A policy that denies everything. -/
def denyingAll (revision : Nat) : RemoteJobPolicy := { revision, denyAll := true }

/-- The whole update to revision `1`. -/
def stored : Attempt RemoteJobPolicy := ⟨denyingAll 1, 9, fun _ => []⟩

/-- An update to revision `2`, cut off between its two renames. -/
def cutOff : Attempt RemoteJobPolicy := ⟨denyingAll 2, 7, fun _ => []⟩

theorem loadFile_stored (serde : SerdeJson PolicyDocument) :
    (loadFile serde).value (step serde .empty stored).disk = .ok (denyingAll 1) := by
  have hdisk : Storage.Holds (step serde .empty stored).disk ⟨some (encode serde _), none⟩ :=
    History.save_holds (h := .empty) History.empty_holds stored
  rw [loadFile_value serde hdisk]
  simp [loads, decodePolicyDocument, encode, serde.fromSlice_toVecPretty,
    RemoteJobPolicy.fromSnapshot, RemoteJobPolicy.snapshot, stored, denyingAll]

/-- **Everything is allowed again**: a policy that denies all Jobs is stored, the update to its next
    revision is cut off between its two renames, and the start finds the default policy. -/
theorem crash_between_renames_allows_all :
    (loadFile (.strokes PolicyDocument)).value (step (.strokes _) .empty stored).disk =
        .ok (denyingAll 1) ∧
      (loadFile (.strokes PolicyDocument)).value
        (step (.strokes _) (step (.strokes _) .empty stored) cutOff).disk = .ok {} ∧
      ¬ Along (step (.strokes _)) (AllOrNothing (.strokes _)) .empty [stored, cutOff] := by
  refine ⟨loadFile_stored _, rfl, ?_⟩
  rintro ⟨-, hcut, -⟩
  rcases hcut.found with hold | hnew | ⟨e, he⟩
  · cases hold.trans (loadFile_stored _)
  · cases hnew
  · cases he

end RemoteJobPolicyManager

end Smalux.Remote
