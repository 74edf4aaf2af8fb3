/-
  Subject:   The inventory of plugins the Agent sends (plugins/catalog.rs, manifest.rs), and whether
             the Server takes it.

  The Agent keeps its plugins in a `BTreeMap` by id and version, where a version is three numbers, and
  lists them in that order. The Server wants them ordered by id and version too, but as texts. What
  the Agent checks of a manifest gives everything else the Server asks for.

  Files are what reading them gives: the manifest, whether an entry point lies in the directory, and
  the schema with its identity and its hash.

  * `PluginCatalog.discover`, `PluginCatalog.inventory` -- the Agent's side;
  * **`inventory_accepted_iff`** -- the Server takes the inventory exactly if the versions of each
    plugin are in the same order as numbers and as texts.
-/
import Mathlib.Data.List.Sort
import Mathlib.Data.Nat.Digits.Lemmas
import Mathlib.Data.Prod.Lex
import Mathlib.Data.String.Basic
import Smalux.Lib.Run
import Smalux.Lib.Table
import Smalux.Session.Messages

namespace Smalux.Session

open Lib Table List Proto

variable {manifest : PluginManifest} {plugin : InstalledPlugin}

/-! ## 1. Manifests -/

/-- `u32`. -/
abbrev U32 := Fin (2 ^ 32)

structure PluginVersion where
  major : U32
  minor : U32
  patch : U32
  deriving DecidableEq, Repr

/-- `Display`. -/
def PluginVersion.text (version : PluginVersion) : String :=
  toString version.major.val ++ "." ++ toString version.minor.val ++ "." ++
    toString version.patch.val

inductive PluginPlatform where
  | windows
  | linux
  | macos
  deriving DecidableEq, Repr

/-- `Debug`. -/
def PluginPlatform.debug : PluginPlatform → String
  | .windows => "Windows"
  | .linux => "Linux"
  | .macos => "Macos"

structure PluginManifest where
  pluginId : String
  displayName : String
  version : PluginVersion
  platform : PluginPlatform
  entrypoint : String
  protocolVersion : U32
  schemaFile : String
  taskTypes : List String
  deriving DecidableEq, Repr

/-- The platform the Agent runs on, with `Path::is_absolute` and `Path::join` there. -/
structure PathEnv where
  platform : PluginPlatform
  isAbsolute : String → Bool
  join : String → String → String

/-- `char::is_control`. -/
def isControl (c : Char) : Bool := c.toNat < 32 || decide (127 ≤ c.toNat ∧ c.toNat < 160)

def hasControlCharacter (value : String) : Bool := value.toList.any isControl

def isSafeComponent (value : String) : Bool :=
  !outside value 256 && value.toList.all fun c => c.isAlphanum || c = '.' || c = '_' || c = '-'

/-- Not a path inside the plugin's own directory. -/
def leavesDirectory (env : PathEnv) (path : String) : Bool :=
  path = "" || hasControlCharacter path || env.isAbsolute path ||
    (path.toList.splitOnP fun c => c = '/' || c = '\\').any (· = ['.', '.'])

/-- The texts of `PluginError::InvalidManifest`, without its prefix. -/
def PluginManifest.validate (env : PathEnv) (manifest : PluginManifest) : Except String Unit :=
  if !isSafeComponent manifest.pluginId then
    .error "plugin_id must be a safe 1..=256 byte identifier"
  else if outside manifest.displayName 256 || hasControlCharacter manifest.displayName then
    .error "display_name must contain 1..=256 bytes and no control characters"
  else if leavesDirectory env manifest.entrypoint then
    .error "entrypoint must be a relative path without parent traversal"
  else if manifest.protocolVersion = 0 then
    .error "protocol_version must be greater than zero"
  else if leavesDirectory env manifest.schemaFile then
    .error "schema_file must be a relative path without parent traversal"
  else if manifest.taskTypes = [] ∨
      manifest.taskTypes.any (fun kind => outside kind 256 || hasControlCharacter kind) = true ∨
      unsorted manifest.taskTypes = true then
    .error "task_types must be sorted, unique and non-empty"
  else .ok ()

/-! ## 2. The installed plugins -/

/-- `[u8; 32]`. -/
def SchemaHash := { bytes : List UInt8 // bytes.length = 32 }

/-- What a schema file holds. -/
structure SchemaFile where
  pluginId : String
  pluginVersion : String
  taskKinds : List String
  hash : Except String SchemaHash

inductive PluginCatalogError where
  | readDirectory (path : String)
  | readManifest (path : String)
  | parseManifest (path : String)
  | invalidManifest (path message : String)
  | readSchema (path : String)
  | invalidSchema (path message : String)
  | duplicate (pluginId version : String)
  deriving DecidableEq, Repr

/-- A directory of a version. -/
structure VersionDirectory where
  path : String
  /-- reading and parsing `plugin.json`; none if there is no such file -/
  manifest : Option (Except PluginCatalogError PluginManifest)
  /-- `canonical_plugin_file`, of a label and a relative path -/
  canonicalFile : String → String → Except String String
  /-- reading and decoding the schema at a path -/
  schema : String → Except PluginCatalogError SchemaFile

structure InstalledPlugin where
  manifest : PluginManifest
  schemaHash : SchemaHash

/-- The three numbers, as they are compared. -/
def PluginVersion.numbers (version : PluginVersion) : U32 ×ₗ (U32 ×ₗ U32) :=
  toLex (version.major, toLex (version.minor, version.patch))

/-- The key of the `BTreeMap`. -/
abbrev PluginKey := String ×ₗ (U32 ×ₗ (U32 ×ₗ U32))

def InstalledPlugin.key (plugin : InstalledPlugin) : PluginKey :=
  toLex (plugin.manifest.pluginId, plugin.manifest.version.numbers)

/-- The plugins by their keys, with valid manifests. -/
structure PluginCatalog (env : PathEnv) where
  plugins : Table PluginKey InstalledPlugin
  keyed : ∀ key plugin, plugins.get key = some plugin → key = plugin.key
  valid : ∀ key plugin, plugins.get key = some plugin → plugin.manifest.validate env = .ok ()

/-- `WORKER_PROTOCOL_VERSION`. -/
def workerProtocolVersion : U32 := 2

def validateWorkerManifest (env : PathEnv) (directory : VersionDirectory)
    (manifest : PluginManifest) : Except String Unit :=
  if manifest.platform ≠ env.platform then
    .error ("plugin platform " ++ manifest.platform.debug ++ " does not match current platform " ++
      env.platform.debug)
  else if manifest.protocolVersion ≠ workerProtocolVersion then
    .error ("plugin Worker protocol version " ++ toString manifest.protocolVersion.val ++
      " does not match Agent version " ++ toString workerProtocolVersion.val)
  else (directory.canonicalFile "Worker entrypoint" manifest.entrypoint).map fun _ => ()

namespace PluginCatalog

variable {env : PathEnv}

def empty : PluginCatalog env where
  plugins := .empty
  keyed := fun _ _ h => (nomatch h)
  valid := fun _ _ h => (nomatch h)

/-- The plugin of a directory with a manifest. -/
def load (env : PathEnv) (directory : VersionDirectory) (manifest : PluginManifest) :
    Except PluginCatalogError InstalledPlugin := do
  (validateWorkerManifest env directory manifest).mapError
    (.invalidManifest (env.join directory.path "plugin.json"))
  let schemaPath ← (directory.canonicalFile "Schema" manifest.schemaFile).mapError
    (.invalidSchema (env.join directory.path manifest.schemaFile))
  let schema ← directory.schema schemaPath
  if schema.pluginId ≠ manifest.pluginId ∨ schema.pluginVersion ≠ manifest.version.text ∨
      schema.taskKinds ≠ manifest.taskTypes then
    throw (.invalidSchema schemaPath "schema identity or task kinds do not match manifest")
  else
    let hash ← schema.hash.mapError (.invalidSchema schemaPath)
    return ⟨manifest, hash⟩

/-- `insert`, which may find the key taken. -/
def add (catalog : PluginCatalog env) (plugin : InstalledPlugin)
    (hvalid : plugin.manifest.validate env = .ok ()) :
    Except PluginCatalogError (PluginCatalog env) :=
  if catalog.plugins.contains plugin.key then
    .error (.duplicate plugin.manifest.pluginId plugin.manifest.version.text)
  else .ok {
    plugins := catalog.plugins.insert plugin.key plugin
    keyed := by
      intro key found hfound
      rw [get_insert] at hfound
      split at hfound
      · rename_i hkey
        cases hfound
        exact hkey
      · exact catalog.keyed key found hfound
    valid := by
      intro key found hfound
      rw [get_insert] at hfound
      split at hfound
      · cases hfound
        exact hvalid
      · exact catalog.valid key found hfound }

theorem load_manifest {directory : VersionDirectory} (h : load env directory manifest = .ok plugin) :
    plugin.manifest = manifest := by
  obtain ⟨_, -, h⟩ := bind_eq_ok h
  obtain ⟨_, -, h⟩ := bind_eq_ok h
  obtain ⟨_, -, h⟩ := bind_eq_ok h
  split at h
  · cases h
  · obtain ⟨hash, -, h⟩ := bind_eq_ok h
    cases h
    rfl

/-- One directory of a version, or the error of reading it. -/
def addDirectory (catalog : PluginCatalog env) (entry : Except PluginCatalogError VersionDirectory) :
    Except PluginCatalogError (PluginCatalog env) :=
  match entry with
  | .error e => .error e
  | .ok directory =>
    match directory.manifest with
    | none => .ok catalog
    | some (.error e) => .error e
    | some (.ok manifest) =>
      match hvalid : manifest.validate env with
      | .error message => .error (.invalidManifest (env.join directory.path "plugin.json")
          ("invalid plugin manifest: " ++ message))
      | .ok () =>
        match hload : load env directory manifest with
        | .error e => .error e
        | .ok plugin => catalog.add plugin (load_manifest hload ▸ hvalid)

/-- The directories in the order in which they are read. -/
def discover (env : PathEnv) (entries : List (Except PluginCatalogError VersionDirectory)) :
    Except PluginCatalogError (PluginCatalog env) :=
  entries.foldlM addDirectory empty

/-- `values()`: in the order of the keys. -/
def inOrder (catalog : PluginCatalog env) : List InstalledPlugin :=
  (catalog.plugins.entries.insertionSort fun a b => a.1 ≤ b.1).map Prod.snd

end PluginCatalog

/-- `SCHEMA_FORMAT_VERSION`. -/
def schemaFormatVersion : Nat := 1

def InstalledPlugin.toProtocol (plugin : InstalledPlugin) : PluginInventoryEntry where
  pluginId := plugin.manifest.pluginId
  version := plugin.manifest.version.text
  taskKinds := plugin.manifest.taskTypes.insertionSort (· ≤ ·)
  schemaHash := plugin.schemaHash.val
  schemaFormatVersion := schemaFormatVersion

def PluginCatalog.inventory {env : PathEnv} (catalog : PluginCatalog env) :
    AgentPluginInventory :=
  ⟨1, catalog.inOrder.map InstalledPlugin.toProtocol⟩

/-! ## 3. What a manifest gives -/

/-- Digits take one byte each. -/
theorem utf8Len_digits : ∀ {digits : List Char}, (∀ c ∈ digits, c.isDigit = true) →
    String.utf8Len digits = digits.length
  | [], _ => rfl
  | c :: rest, h => by
    have hdigit := Bool.and_eq_true_iff.mp (h c mem_cons_self)
    have hascii : c.val ≤ 127 :=
      UInt32.le_trans (of_decide_eq_true hdigit.2) (by decide : '9'.val ≤ 127)
    have hsize : c.utf8Size = 1 := Char.utf8Size_eq_one_iff.mpr hascii
    rw [String.utf8Len_cons, utf8Len_digits fun c' hc' => h c' (mem_cons_of_mem _ hc'), hsize,
      length_cons]

theorem number_bytes (n : U32) : (toString n.val).utf8ByteSize ≤ 10 := by
  show (Nat.repr n.val).utf8ByteSize ≤ 10
  rw [Nat.repr_eq_ofList_toDigits, String.utf8ByteSize_ofList,
    utf8Len_digits fun c hc => Nat.isDigit_of_mem_toDigits (by decide) (by decide) hc]
  exact Nat.toDigits_length 10 n.val 10 (by decide) (lt_of_lt_of_le n.isLt (by decide))

/-- The text of a version is neither empty nor too long. -/
theorem version_within (version : PluginVersion) :
    outside version.text maxPluginVersionBytes = false := by
  have hmajor := number_bytes version.major
  have hminor := number_bytes version.minor
  have hpatch := number_bytes version.patch
  have hdot : (".".utf8ByteSize : Nat) = 1 := by decide +kernel
  have hsize : version.text.utf8ByteSize =
      (toString version.major.val).utf8ByteSize + 1 + (toString version.minor.val).utf8ByteSize + 1 +
        (toString version.patch.val).utf8ByteSize := by
    simp only [PluginVersion.text, String.utf8ByteSize_append, hdot]
  have hnonempty : version.text ≠ "" := by
    intro hempty
    rw [hempty] at hsize
    have hzero : "".utf8ByteSize = 0 := by decide +kernel
    omega
  have hlong : ¬ maxPluginVersionBytes < version.text.utf8ByteSize := by
    unfold maxPluginVersionBytes
    omega
  simp [outside, hnonempty, hlong]

/-- What the Server relies on. -/
theorem validate_ok {env : PathEnv} (h : manifest.validate env = .ok ()) :
    outside manifest.pluginId maxPluginIdBytes = false ∧ manifest.taskTypes ≠ [] ∧
      manifest.taskTypes.any (outside · maxTaskKindBytes) = false ∧
      unsorted manifest.taskTypes = false := by
  unfold PluginManifest.validate at h
  split at h
  · cases h
  rename_i hsafe
  iterate 4
    split at h
    · cases h
  split at h
  · cases h
  rename_i htypes
  rw [not_or, not_or] at htypes
  obtain ⟨hsome, hkinds, hsorted⟩ := htypes
  refine ⟨?_, hsome, ?_, by simpa using hsorted⟩
  · rw [Bool.not_eq_true, Bool.not_eq_false', isSafeComponent, Bool.and_eq_true] at hsafe
    exact Bool.not_eq_true' _ ▸ hsafe.1
  · rw [Bool.not_eq_true, any_eq_false] at hkinds
    refine any_eq_false.mpr fun kind hkind houtside => hkinds kind hkind ?_
    rw [show outside kind 256 = true from houtside, Bool.true_or]

theorem pairwise_of_unsorted {values : List String} (h : unsorted values = false) :
    values.Pairwise (· < ·) := by
  have hchain := anyPair_eq_false_iff.mp h
  refine isChain_iff_pairwise.mp (hchain.imp fun a b hab => ?_)
  simpa using hab

/-- The Agent's entry is one the Server takes. -/
theorem InstalledPlugin.toProtocol_valid {env : PathEnv} (h : plugin.manifest.validate env = .ok ()) :
    invalidPlugin plugin.toProtocol = false := by
  obtain ⟨hid, hsome, hkinds, hsorted⟩ := validate_ok h
  have hsame : plugin.manifest.taskTypes.insertionSort (· ≤ ·) = plugin.manifest.taskTypes :=
    ((pairwise_of_unsorted hsorted).imp le_of_lt).insertionSort_eq
  have hhash : plugin.schemaHash.val.length = 32 := plugin.schemaHash.property
  unfold invalidPlugin InstalledPlugin.toProtocol
  simp [hsame, hid, version_within, hhash, hkinds, hsorted, hsome, schemaFormatVersion]

/-! ## 4. The order -/

namespace PluginCatalog

variable {env : PathEnv} (catalog : PluginCatalog env)

theorem mem_inOrder : plugin ∈ catalog.inOrder ↔ plugin ∈ catalog.plugins.values := by
  exact ((perm_insertionSort _ _).map Prod.snd).mem_iff

/-- The plugins come in the order of their keys. -/
theorem inOrder_pairwise : catalog.inOrder.Pairwise fun a b => a.key < b.key := by
  have hkeys : catalog.inOrder.map InstalledPlugin.key = catalog.plugins.keys.insertionSort (· ≤ ·) := by
    unfold inOrder Table.keys
    rw [← map_insertionSort _ (· ≤ ·) Prod.fst _ fun a _ b _ => Iff.rfl, map_map]
    refine map_congr_left fun entry hentry => ?_
    rw [mem_insertionSort] at hentry
    exact (catalog.keyed entry.1 entry.2 (get_eq_some_iff.mpr hentry)).symm
  have hnodup : (catalog.plugins.keys.insertionSort (· ≤ ·)).Nodup :=
    (perm_insertionSort _ _).nodup_iff.mpr catalog.plugins.nodup
  have hsorted := pairwise_insertionSort (· ≤ ·) catalog.plugins.keys
  have hstrict := (hsorted.and hnodup).imp fun {a b} hab => lt_of_le_of_ne hab.1 hab.2
  rw [← hkeys] at hstrict
  exact pairwise_map.mp hstrict

/-- Of each plugin the versions are in the same order as numbers and as texts. -/
def TextsInOrder : Prop :=
  ∀ a ∈ catalog.plugins.values, ∀ b ∈ catalog.plugins.values,
    a.manifest.pluginId = b.manifest.pluginId →
      a.manifest.version.numbers < b.manifest.version.numbers →
        a.manifest.version.text < b.manifest.version.text
  deriving Decidable

omit catalog in
/-- The Server's order, in full. -/
theorem notBefore_eq_false_iff {a b : PluginInventoryEntry} : notBefore a b = false ↔
      a.pluginId < b.pluginId ∨ a.pluginId = b.pluginId ∧ a.version < b.version := by
  unfold notBefore
  simp only [Bool.or_eq_false_iff, decide_eq_false_iff_not, not_lt, Bool.and_eq_false_iff, not_le]
  constructor
  · rintro ⟨hle, hne | hlt⟩
    · exact .inl (lt_of_le_of_ne hle hne)
    · exact hle.lt_or_eq.imp_right fun heq => ⟨heq, hlt⟩
  · rintro (hlt | ⟨heq, hlt⟩)
    · exact ⟨hlt.le, .inl hlt.ne⟩
    · exact ⟨heq.le, .inr hlt⟩

omit catalog in
theorem notBefore_trans {a b c : PluginInventoryEntry} (hab : notBefore a b = false)
    (hbc : notBefore b c = false) : notBefore a c = false := by
  rw [notBefore_eq_false_iff] at *
  rcases hab with hab | ⟨heq, hab⟩
  · rcases hbc with hbc | ⟨heq, -⟩
    · exact .inl (hab.trans hbc)
    · exact .inl (heq ▸ hab)
  · rcases hbc with hbc | ⟨heq', hbc⟩
    · exact .inl (heq ▸ hbc)
    · exact .inr ⟨heq.trans heq', hab.trans hbc⟩

omit catalog in
/-- Entry after entry: the Server's order. -/
theorem not_notBefore_iff {a b : InstalledPlugin} (hkeys : a.key < b.key) :
    notBefore a.toProtocol b.toProtocol = false ↔ (a.manifest.pluginId = b.manifest.pluginId →
        a.manifest.version.text < b.manifest.version.text) := by
  rw [notBefore_eq_false_iff]
  rcases Prod.Lex.toLex_lt_toLex.mp hkeys with hlt | ⟨heq, -⟩
  · exact iff_of_true (.inl hlt) fun heq => absurd heq hlt.ne
  · exact ⟨fun h _ => h.elim (fun hlt => absurd heq hlt.ne) fun h => h.2, fun h => .inr ⟨heq, h heq⟩⟩

/-- All pairs, or the pairs in the order of the keys. -/
theorem textsInOrder_iff : catalog.TextsInOrder ↔
    catalog.inOrder.Pairwise fun a b => a.manifest.pluginId = b.manifest.pluginId →
      a.manifest.version.text < b.manifest.version.text := by
  have hsorted := catalog.inOrder_pairwise
  constructor
  · intro h
    refine hsorted.imp_of_mem fun {a b} ha hb hkeys hid => ?_
    refine h a (catalog.mem_inOrder.mp ha) b (catalog.mem_inOrder.mp hb) hid ?_
    rcases Prod.Lex.toLex_lt_toLex.mp hkeys with hlt | ⟨-, hlt⟩
    · exact absurd hid hlt.ne
    · exact hlt
  · intro h a ha b hb hid hnumbers
    have hkeys : a.key < b.key := Prod.Lex.toLex_lt_toLex.mpr (.inr ⟨hid, hnumbers⟩)
    -- of the two, `a` comes first
    obtain ⟨i, hi, rfl⟩ := mem_iff_getElem.mp (catalog.mem_inOrder.mpr ha)
    obtain ⟨j, hj, rfl⟩ := mem_iff_getElem.mp (catalog.mem_inOrder.mpr hb)
    rcases Nat.lt_trichotomy i j with hij | rfl | hji
    · exact pairwise_iff_getElem.mp h i j hi hj hij hid
    · exact absurd hkeys (lt_irrefl _)
    · exact absurd hkeys (pairwise_iff_getElem.mp hsorted j i hj hi hji).asymm

/-- Neighbours in the Server's order, or all pairs in it. -/
theorem accepted_order_iff :
    anyPair notBefore (catalog.inOrder.map InstalledPlugin.toProtocol) = false ↔
      catalog.TextsInOrder := by
  have : Trans (fun a b : PluginInventoryEntry => notBefore a b = false)
      (fun a b => notBefore a b = false) (fun a b => notBefore a b = false) := ⟨notBefore_trans⟩
  rw [anyPair_eq_false_iff, isChain_iff_pairwise, pairwise_map, catalog.textsInOrder_iff]
  exact ⟨fun h => (h.and catalog.inOrder_pairwise).imp fun {a b} hab => (not_notBefore_iff hab.2).mp hab.1,
    fun h => (h.and catalog.inOrder_pairwise).imp fun {a b} hab => (not_notBefore_iff hab.2).mpr hab.1⟩

end PluginCatalog

/-- **Inventories**: what the Agent sends after a successful discovery, with no more plugins than the
    Server allows, is taken if and only if the versions of each plugin are in the same order as numbers
    and as texts. -/
theorem inventory_accepted_iff (env : PathEnv)
    (entries : List (Except PluginCatalogError VersionDirectory)) :
    ∀ catalog, PluginCatalog.discover env entries = .ok catalog →
      catalog.plugins.len ≤ maxInstalledPlugins →
        (validatePluginInventory catalog.inventory = .ok () ↔ catalog.TextsInOrder) := by
  intro catalog _ hcount
  have hlength : ¬ maxInstalledPlugins < (catalog.inOrder.map InstalledPlugin.toProtocol).length := by
    unfold PluginCatalog.inOrder
    rw [length_map, length_map, length_insertionSort]
    exact Nat.not_lt.mpr hcount
  have hentries : (catalog.inOrder.map InstalledPlugin.toProtocol).any invalidPlugin = false := by
    rw [any_map]
    refine any_eq_false.mpr fun plugin hplugin => ?_
    obtain ⟨key, hget⟩ := mem_values_iff.mp (catalog.mem_inOrder.mp hplugin)
    simpa using InstalledPlugin.toProtocol_valid (catalog.valid key plugin hget)
  unfold validatePluginInventory PluginCatalog.inventory
  rw [if_neg (by simpa using hlength), if_neg (by simpa using hentries)]
  rw [← catalog.accepted_order_iff]
  cases anyPair notBefore (catalog.inOrder.map InstalledPlugin.toProtocol) with
  | true | false => simp

/-! ## 5. The tenth minor version -/

section Tenth

def linuxAgent : PathEnv :=
  ⟨.linux, fun path => path.toList.head? = some '/', fun path file => path ++ "/" ++ file⟩

/-- A directory with a version of the echo plugin in it. -/
def echoVersion (version : PluginVersion) : Except PluginCatalogError VersionDirectory :=
  .ok {
    path := "/opt/plugins/plus.echo/" ++ version.text
    manifest := some (.ok {
      pluginId := "plus.echo", displayName := "Echo", version := version, platform := .linux,
      entrypoint := "worker", protocolVersion := 2, schemaFile := "schema.pb",
      taskTypes := ["plus.echo.v1"] })
    canonicalFile := fun _ file => .ok ("/opt/plugins/plus.echo/" ++ version.text ++ "/" ++ file)
    schema := fun _ => .ok {
      pluginId := "plus.echo", pluginVersion := version.text, taskKinds := ["plus.echo.v1"],
      hash := .ok ⟨List.replicate 32 0, rfl⟩ } }

/-- Two versions side by side, found in any order. -/
theorem two_minor_versions_accepted :
    ∃ catalog, PluginCatalog.discover linuxAgent [echoVersion ⟨1, 9, 0⟩, echoVersion ⟨1, 8, 0⟩] =
      .ok catalog ∧ validatePluginInventory catalog.inventory = .ok () := by
  have heval : (match PluginCatalog.discover linuxAgent
        [echoVersion ⟨1, 9, 0⟩, echoVersion ⟨1, 8, 0⟩] with
      | .ok catalog => decide (catalog.plugins.len ≤ maxInstalledPlugins ∧ catalog.TextsInOrder)
      | .error _ => false) = true := by
    decide +kernel
  cases hfound : PluginCatalog.discover linuxAgent
      [echoVersion ⟨1, 9, 0⟩, echoVersion ⟨1, 8, 0⟩] with
  | error e =>
    rw [hfound] at heval
    cases heval
  | ok catalog =>
    rw [hfound] at heval
    obtain ⟨hcount, htexts⟩ := of_decide_eq_true heval
    exact ⟨catalog, rfl, (inventory_accepted_iff _ _ catalog hfound hcount).mpr htexts⟩

/-- Beside 1.9.0, 1.10.0 comes second as a number and first as a text. -/
theorem tenth_version_rejected :
    (PluginCatalog.discover linuxAgent [echoVersion ⟨1, 9, 0⟩, echoVersion ⟨1, 10, 0⟩]).map
        (fun catalog => (catalog.inventory.plugins.map PluginInventoryEntry.version,
          validatePluginInventory catalog.inventory)) = .ok (["1.9.0", "1.10.0"],
        .error "Agent plugin inventory entries must be sorted and unique") := by
  decide +kernel

end Tenth

end Smalux.Session
