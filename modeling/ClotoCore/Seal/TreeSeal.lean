import ClotoCore.Encoding.Hmac
import ClotoCore.Encoding.Utf8Lossy
import ClotoCore.Seal.Manifest

/-!
# The kernel's tree seal

The seal the kernel mints over an installed tree and checks before every
launch: the keyed digest of the manifest.  The order in which the system lists
a directory is arbitrary and leaves no trace in it.
-/

namespace ClotoCore.Seal

open ClotoCore.Encoding

/-- `TREE_SEAL_PREFIX` -/
def treeSealPrefix : String := "tree-sha256:"

/-- `is_tree_seal` -/
def isTreeSeal (value : String) : Bool :=
  treeSealPrefix.toList.isPrefixOf value.toList

/-- `Path::extension`: what follows the last dot of the file name, unless that
dot is its first character. -/
def extension (relative : RelPath) : Option Bytes :=
  match relative.getLast? with
  | none => none
  | some name =>
      match splitAtLastDot name with
      | none => none
      | some ([], _) => none
      | some (_ :: _, after) => some after

/-- The test `is_excluded` makes on one component. -/
def isExcludedComponent (component : Name) : Bool :=
  let name := toStringLossy component
  name == utf8 "__pycache__" || name == utf8 ".venv" || name == utf8 ".git"
    || name == utf8 "node_modules" || (utf8 ".egg-info").isSuffixOf name
    || (utf8 ".dist-info").isSuffixOf name

/-- The test `is_excluded` makes on the extension. -/
def hasBytecodeExtension (relative : RelPath) : Bool :=
  match (extension relative).bind toStr with
  | some text => text == utf8 "pyc" || text == utf8 "pyo"
  | none => false

/-- `is_excluded` -/
def isExcluded (relative : RelPath) : Bool :=
  if relative.any isExcludedComponent then true
  else hasBytecodeExtension relative

theorem isExcluded_singleton_of_noDot {name : Name} (wellFormed : IsUtf8 name) (noDot : 0x2E ∉ name)
    (notCache : name ≠ utf8 "__pycache__") (notModules : name ≠ utf8 "node_modules") :
    isExcluded [name] = false := by
  have dotted : ∀ text ∈ [utf8 ".venv", utf8 ".git", utf8 ".egg-info", utf8 ".dist-info"],
      0x2E ∈ text := by decide
  have notVenv : name ≠ utf8 ".venv" := fun same => noDot (same ▸ dotted _ (by simp))
  have notGit : name ≠ utf8 ".git" := fun same => noDot (same ▸ dotted _ (by simp))
  have notEgg : ¬utf8 ".egg-info" <:+ name := fun suffix =>
    noDot (suffix.subset (dotted _ (by simp)))
  have notDist : ¬utf8 ".dist-info" <:+ name := fun suffix =>
    noDot (suffix.subset (dotted _ (by simp)))
  have kept : isExcludedComponent name = false := by
    simp [isExcludedComponent, toStringLossy_of_isUtf8 wellFormed, notCache, notVenv, notGit,
      notModules, notEgg, notDist, ← Bool.not_eq_true, List.isSuffixOf_iff_suffix]
  simp [isExcluded, hasBytecodeExtension, kept, extension, splitAtLastDot_eq_none noDot]

/-- The path as the manifest prints it. -/
def printable (relative : RelPath) : Bytes :=
  joinSlash (relative.map toStringLossy)

theorem printable_of_isUtf8 {path : RelPath} (wellFormed : ∀ name ∈ path, IsUtf8 name) :
    printable path = joinSlash path := by
  rw [printable, List.map_congr_left fun name mem => toStringLossy_of_isUtf8 (wellFormed name mem),
    List.map_id']

section Sealing

variable (sha256 : Digest) (listing : Listing) (root : String)

/-- `collect_files` -/
def collectFiles (tree : InstallTree) : Except Bytes (List RelPath) :=
  (walkTree isExcluded listing root (walkFrom tree)).map (·.mergeSort pathLe)

/-- `tree_manifest` -/
def treeManifest (tree : InstallTree) : Except Bytes Bytes :=
  (collectFiles listing root tree).bind (writeManifest sha256 printable root tree)

/-- The refusal of a root that is no directory. -/
def notADirectory : Bytes :=
  utf8 s!"Cannot seal install tree: '{root}' is not a directory"

/-- `compute_tree_seal` of what is found at the root, a directory or none.  The
keyed digest takes a key of any length. -/
def computeTreeSeal (key : Bytes) (atRoot : Option InstallTree) : Except Bytes String :=
  match atRoot with
  | none => .error (notADirectory root)
  | some tree =>
      (treeManifest sha256 listing root tree).map fun manifest =>
        treeSealPrefix ++ hexEncode (hmacSha256 sha256 key manifest)

/-- The refusal of a value that is no tree seal. -/
def notATreeSeal (expected : String) : Bytes :=
  utf8 s!"Not a tree seal: '{expected}'"

/-- `verify_tree_seal` -/
def verifyTreeSeal (key : Bytes) (expected : String) (atRoot : Option InstallTree) :
    Except Bytes Bool :=
  if isTreeSeal expected then
    (computeTreeSeal sha256 listing root key atRoot).map fun computed => computed == expected
  else
    .error (notATreeSeal expected)

/-! ## What a seal is -/

/-- The files a seal covers, each with its printed path. -/
def sealedFiles (tree : InstallTree) : List (Bytes × Bytes) :=
  (orderedFiles tree isExcluded).map (covered printable tree)

/-- The tree is small enough to be sealed. -/
def Sealable (tree : InstallTree) : Prop :=
  (tree.files isExcluded).length ≤ maxManifestFiles

/-- The seal of the tree. -/
def treeSeal (key : Bytes) (tree : InstallTree) : String :=
  treeSealPrefix ++ hexEncode (hmacSha256 sha256 key (manifestLines sha256 (sealedFiles tree)))

theorem treeManifest_of_sealable {tree : InstallTree} (sealable : Sealable tree) :
    treeManifest sha256 listing root tree = .ok (manifestLines sha256 (sealedFiles tree)) := by
  rw [treeManifest, collectFiles, manifest_eq]
  exact if_pos sealable

theorem treeManifest_of_not_sealable {tree : InstallTree} (large : ¬Sealable tree) :
    treeManifest sha256 listing root tree = .error (tooManyFiles root) := by
  rw [treeManifest, collectFiles, manifest_eq]
  exact if_neg large

/-- A tree has a seal exactly when it is within the ceiling, and then only one. -/
theorem computeTreeSeal_eq_ok_iff {key : Bytes} {tree : InstallTree} {minted : String} :
    computeTreeSeal sha256 listing root key (some tree) = .ok minted ↔
      Sealable tree ∧ minted = treeSeal sha256 key tree := by
  by_cases sealable : Sealable tree
  · rw [computeTreeSeal, treeManifest_of_sealable sha256 listing root sealable]
    simp only [Except.map, Except.ok.injEq, sealable, true_and]
    exact eq_comm
  · rw [computeTreeSeal, treeManifest_of_not_sealable sha256 listing root sealable]
    simp [Except.map, sealable]

theorem isTreeSeal_treeSeal (key : Bytes) (tree : InstallTree) :
    isTreeSeal (treeSeal sha256 key tree) = true := by
  rw [isTreeSeal, treeSeal, String.toList_append, List.isPrefixOf_iff_prefix]
  exact List.prefix_append _ _

/-- A seal verifies on a tree exactly when it is the tree's own. -/
theorem verifyTreeSeal_eq_true_iff {key : Bytes} {expected : String} {atRoot : Option InstallTree}
    (isSeal : isTreeSeal expected = true) :
    verifyTreeSeal sha256 listing root key expected atRoot = .ok true ↔
      computeTreeSeal sha256 listing root key atRoot = .ok expected := by
  rw [verifyTreeSeal, if_pos isSeal]
  cases computeTreeSeal sha256 listing root key atRoot with
  | error text => simp [Except.map]
  | ok computed => simp [Except.map]

/-- Two trees have the same seal exactly when they have the same manifest. -/
theorem treeSeal_eq_iff {sha256 : Digest} (injective : Function.Injective sha256) {key : Bytes}
    {left right : InstallTree} :
    treeSeal sha256 key left = treeSeal sha256 key right ↔
      manifestLines sha256 (sealedFiles left) = manifestLines sha256 (sealedFiles right) := by
  constructor
  · intro equal
    have hexEq := congrArg String.toList equal
    simp only [treeSeal, String.toList_append, List.append_cancel_left_eq] at hexEq
    have codeEq := hexEncode_injective (String.toList_inj.mp hexEq)
    exact hmacSha256_injective injective key codeEq
  · intro equal
    rw [treeSeal, treeSeal, equal]

end Sealing

end ClotoCore.Seal
