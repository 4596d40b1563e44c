import ClotoCore.Seal.TreeSeal

/-!
# The installer's tree manifest

The installer walks, sorts and prints a tree in a language of its own, with
names as raw bytes.  On trees with UTF-8 names it writes the manifest the kernel
writes.
-/

namespace ClotoCore.Seal.Go

open ClotoCore.Encoding

/-- `strings.LastIndexByte`; none stands for -1. -/
def lastIndexByte (name : Name) (byte : UInt8) : Option Nat :=
  match name with
  | [] => none
  | first :: rest =>
      match lastIndexByte rest byte with
      | some index => some (index + 1)
      | none => if first = byte then some 0 else none

/-- `extension` -/
def extension (name : Name) : Bytes :=
  match lastIndexByte name 0x2E with
  | none => []
  | some 0 => []
  | some (index + 1) => name.drop (index + 2)

/-- The test `isExcluded` makes on one component. -/
def isExcludedComponent (component : Name) : Bool :=
  if component == utf8 "__pycache__" || component == utf8 ".venv" || component == utf8 ".git"
      || component == utf8 "node_modules" then true
  else if (utf8 ".egg-info").isSuffixOf component || (utf8 ".dist-info").isSuffixOf component then
    true
  else false

/-- The test `isExcluded` makes on the last component. -/
def hasBytecodeExtension (components : RelPath) : Bool :=
  match components.getLast? with
  | none => false
  | some name => extension name == utf8 "pyc" || extension name == utf8 "pyo"

/-- `isExcluded` -/
def isExcluded (components : RelPath) : Bool :=
  if components.any isExcludedComponent then true
  else hasBytecodeExtension components

/-- `lessByComponents` -/
def lessByComponents : RelPath → RelPath → Bool
  | first :: rest, other :: others =>
      if first ≠ other then decide (first < other) else lessByComponents rest others
  | left, right => decide (left.length < right.length)

/-- `os.ReadDir` lists a directory by name. -/
def readDir : Listing where
  order entries := entries.mergeSort fun left right => decide (left.1 ≤ right.1)
  perm entries := List.mergeSort_perm entries _

section Manifest

variable (sha256 : Digest) (root : String)

/-- `collectFiles`.  No two paths of a tree are equal, so that `sort.Slice` is
not stable does not show. -/
def collectFiles (tree : InstallTree) : Except Bytes (List RelPath) :=
  (walkTree isExcluded readDir root (walkFrom tree)).map fun found =>
    found.mergeSort fun left right => !lessByComponents right left

/-- `TreeManifest` -/
def treeManifest (tree : InstallTree) : Except Bytes Bytes :=
  (collectFiles root tree).bind (writeManifest sha256 joinSlash root tree)

/-- `ComputeTreeSeal` of what is found at the root, a directory or none. -/
def computeTreeSeal (key : Bytes) (atRoot : Option InstallTree) : Except Bytes String :=
  match atRoot with
  | none => .error (notADirectory root)
  | some tree =>
      (treeManifest sha256 root tree).map fun manifest =>
        treeSealPrefix ++ hexEncode (hmacSha256 sha256 key manifest)

end Manifest

/-! ## Exclusion -/

theorem lastIndexByte_eq (name : Name) :
    lastIndexByte name 0x2E = (splitAtLastDot name).map fun parts => parts.1.length := by
  induction name with
  | nil => rfl
  | cons first rest ih =>
      rw [lastIndexByte, splitAtLastDot, ih]
      cases splitAtLastDot rest with
      | none => by_cases isDot : first = 0x2E <;> simp [isDot]
      | some parts => rfl

theorem eq_of_splitAtLastDot_eq_some {name before after : Name}
    (split : splitAtLastDot name = some (before, after)) : name = before ++ 0x2E :: after := by
  induction name generalizing before with
  | nil => simp [splitAtLastDot] at split
  | cons first rest ih =>
      rw [splitAtLastDot] at split
      cases restSplit : splitAtLastDot rest with
      | none =>
          by_cases isDot : first = 0x2E
          · simp only [restSplit, isDot, if_true, Option.some.injEq, Prod.mk.injEq] at split
            rw [isDot, ← split.1, ← split.2]
            rfl
          · simp [restSplit, isDot] at split
      | some parts =>
          rcases parts with ⟨restBefore, restAfter⟩
          simp only [restSplit, Option.some.injEq, Prod.mk.injEq] at split
          rcases split with ⟨rfl, rfl⟩
          rw [ih restSplit]
          rfl

/-- The two ways to take an extension agree. -/
theorem extension_eq (name : Name) :
    extension name = match splitAtLastDot name with
      | none => []
      | some ([], _) => []
      | some (_ :: _, after) => after := by
  rw [extension, lastIndexByte_eq]
  cases split : splitAtLastDot name with
  | none => rfl
  | some parts =>
      rcases parts with ⟨before, after⟩
      have nameEq := eq_of_splitAtLastDot_eq_some split
      cases before with
      | nil => rfl
      | cons first more =>
          rw [nameEq]
          simp [List.drop_append]

theorem or_eq_ite (named egg dist : Bool) :
    (named || egg || dist)
      = if named = true then true else if (egg || dist) = true then true else false := by
  cases named <;> cases egg <;> cases dist <;> rfl

theorem isExcludedComponent_eq {component : Name} (wellFormed : IsUtf8 component) :
    Seal.isExcludedComponent component = isExcludedComponent component := by
  rw [Seal.isExcludedComponent, isExcludedComponent, toStringLossy_of_isUtf8 wellFormed]
  exact or_eq_ite _ _ _

/-- The bytecode extensions are recognised alike, whatever bytes are before the
dot. -/
theorem hasBytecodeExtension_eq (components : RelPath) :
    Seal.hasBytecodeExtension components = hasBytecodeExtension components := by
  have bytecodeUtf8 : IsUtf8 (utf8 "pyc") ∧ IsUtf8 (utf8 "pyo") := by decide
  have noExtension : ((([] : Bytes) == utf8 "pyc") || (([] : Bytes) == utf8 "pyo")) = false := by
    decide
  rw [Seal.hasBytecodeExtension, hasBytecodeExtension, Seal.extension]
  cases components.getLast? with
  | none => rfl
  | some name =>
      simp only [extension_eq]
      cases splitAtLastDot name with
      | none => exact noExtension.symm
      | some parts =>
          rcases parts with ⟨_ | ⟨first, more⟩, after⟩
          · exact noExtension.symm
          · rw [Option.bind_some]
            by_cases wellFormed : IsUtf8 after
            · rw [toStr_of_isUtf8 wellFormed]
            · have notPyc : after ≠ utf8 "pyc" := fun same => wellFormed (same ▸ bytecodeUtf8.1)
              have notPyo : after ≠ utf8 "pyo" := fun same => wellFormed (same ▸ bytecodeUtf8.2)
              simp [toStr, wellFormed, notPyc, notPyo]

/-- On UTF-8 names the exclusion rules agree. -/
theorem isExcluded_eq {components : RelPath} (wellFormed : ∀ name ∈ components, IsUtf8 name) :
    Seal.isExcluded components = isExcluded components := by
  have anyEq : components.any Seal.isExcludedComponent = components.any isExcludedComponent := by
    induction components with
    | nil => rfl
    | cons first rest ih =>
        rw [List.any_cons, List.any_cons, isExcludedComponent_eq (wellFormed _ List.mem_cons_self),
          ih fun name mem => wellFormed name (List.mem_cons_of_mem _ mem)]
  rw [Seal.isExcluded, isExcluded, anyEq, hasBytecodeExtension_eq]

/-! ## Order -/

/-- The component order is the lexicographic order of paths. -/
theorem lessByComponents_eq (left right : RelPath) :
    lessByComponents left right = decide (left < right) := by
  induction left generalizing right with
  | nil => cases right <;> simp [lessByComponents]
  | cons first rest ih =>
      cases right with
      | nil => simp [lessByComponents]
      | cons other others =>
          rw [lessByComponents, ih]
          by_cases same : first = other
          · simp [same]
          · simp [same, List.cons_lt_cons_iff]

theorem not_lessByComponents (left right : RelPath) :
    (!lessByComponents right left) = pathLe left right := by
  rw [lessByComponents_eq, pathLe, ← decide_not]
  exact decide_eq_decide.mpr List.not_lt

/-! ## The manifest -/

/-- Every name in the tree is UTF-8. -/
def Utf8Names (tree : InstallTree) : Prop :=
  ∀ name ∈ namesUnder tree.entries, IsUtf8 name

instance (tree : InstallTree) : Decidable (Utf8Names tree) :=
  inferInstanceAs (Decidable (∀ name ∈ namesUnder tree.entries, IsUtf8 name))

theorem Utf8Names.isUtf8 {tree : InstallTree} (utf8Names : Utf8Names tree) {path : RelPath}
    {found : Node} (foundAt : tree.root.at path = some found) : ∀ name ∈ path, IsUtf8 name :=
  fun name mem => utf8Names name (mem_names_of_at foundAt name mem)

/-- The walks leave out the same paths on the way to a UTF-8 path. -/
theorem kept_iff {start relative : RelPath} (startUtf8 : ∀ name ∈ start, IsUtf8 name)
    (relativeUtf8 : ∀ name ∈ relative, IsUtf8 name) :
    Kept Seal.isExcluded start relative ↔ Kept isExcluded start relative := by
  induction relative generalizing start with
  | nil => exact Iff.rfl
  | cons name rest ih =>
      have nextUtf8 : ∀ component ∈ start ++ [name], IsUtf8 component := by
        intro component mem
        rcases List.mem_append.mp mem with inStart | last
        · exact startUtf8 component inStart
        · rw [List.mem_singleton.mp last]
          exact relativeUtf8 name List.mem_cons_self
      have restUtf8 : ∀ component ∈ rest, IsUtf8 component := fun component mem =>
        relativeUtf8 component (List.mem_cons_of_mem _ mem)
      rw [Kept, Kept, isExcluded_eq nextUtf8, ih nextUtf8 restUtf8]

/-- The walks collect the same files. -/
theorem files_perm {tree : InstallTree} (utf8Names : Utf8Names tree) :
    (tree.files Seal.isExcluded).Perm (tree.files isExcluded) := by
  apply (List.perm_ext_iff_of_nodup (nodup_files tree) (nodup_files tree)).mpr
  intro path
  rw [mem_files, mem_files]
  constructor
  · rintro ⟨kept, content, held⟩
    exact ⟨(kept_iff (by simp) (utf8Names.isUtf8 held)).mp kept, content, held⟩
  · rintro ⟨kept, content, held⟩
    exact ⟨(kept_iff (by simp) (utf8Names.isUtf8 held)).mpr kept, content, held⟩

/-- The walks are followed by the same sort. -/
theorem collectFiles_eq (root : String) (tree : InstallTree) :
    collectFiles root tree
      = (walkTree isExcluded readDir root (walkFrom tree)).map (·.mergeSort pathLe) := by
  have orderEq : (fun left right => !lessByComponents right left) = pathLe := by
    funext left right
    exact not_lessByComponents left right
  rw [collectFiles, orderEq]

/-- The covered files are printed alike. -/
theorem covered_eq {tree : InstallTree} (utf8Names : Utf8Names tree) :
    (orderedFiles tree Seal.isExcluded).map (covered printable tree)
      = (orderedFiles tree isExcluded).map (covered joinSlash tree) := by
  have ordered : orderedFiles tree Seal.isExcluded = orderedFiles tree isExcluded :=
    mergeSort_eq_of_perm (files_perm utf8Names)
  rw [ordered]
  apply List.map_congr_left
  intro path mem
  rcases (mem_orderedFiles tree isExcluded).mp mem with ⟨_, content, held⟩
  rw [covered, covered, printable_of_isUtf8 (utf8Names.isUtf8 held)]

/-- On a tree with UTF-8 names the kernel and the installer write the same
manifest, or refuse the tree in the same words. -/
theorem treeManifest_eq (sha256 : Digest) (listing : Listing) (root : String) {tree : InstallTree}
    (utf8Names : Utf8Names tree) :
    Seal.treeManifest sha256 listing root tree = treeManifest sha256 root tree := by
  rw [Seal.treeManifest, Seal.collectFiles, treeManifest, collectFiles_eq, manifest_eq, manifest_eq,
    covered_eq utf8Names, (files_perm utf8Names).length_eq]

/-- Kernel and installer decide alike about every path of a tree with UTF-8
names, order paths alike, print the same line for every file, and write the same
manifest. -/
theorem manifestParity (sha256 : Digest) (listing : Listing) (root : String) (tree : InstallTree)
    (utf8Names : Utf8Names tree) :
    (∀ path node, tree.root.at path = some node → Seal.isExcluded path = isExcluded path) ∧
    (∀ left right, pathLe left right = !lessByComponents right left) ∧
    (∀ path content, tree.Holds path (.file content) →
      manifestLine sha256 (printable path) content = manifestLine sha256 (joinSlash path) content) ∧
    Seal.treeManifest sha256 listing root tree = treeManifest sha256 root tree := by
  constructor
  · intro path node found
    exact isExcluded_eq (utf8Names.isUtf8 found)
  constructor
  · intro left right
    exact (not_lessByComponents left right).symm
  constructor
  · intro path content held
    rw [printable_of_isUtf8 (utf8Names.isUtf8 held)]
  · exact treeManifest_eq sha256 listing root utf8Names

/-- A tree with a hidden file, a cache and a name that sorts behind a directory. -/
def packageTree : InstallTree where
  entries :=
    [(utf8 ".pyc", .leaf (.file [])),
      (utf8 "pkg-extra.txt", .leaf (.file [])),
      (utf8 "pkg", .directory
        [(utf8 "impl.py", .leaf (.file [])),
          (utf8 "__pycache__", .directory [(utf8 "impl.pyc", .leaf (.file []))])])]
  wellFormed := by
    refine ⟨?_, ?_, trivial, ?_, ?_, trivial, ?_, ?_, ⟨?_, ?_, trivial, ?_, ?_, ⟨?_, ?_, trivial,
      trivial⟩, trivial⟩, trivial⟩
    all_goals decide

/-- The kernel, which meets the entries in reverse, and the installer write one
manifest for the package. -/
theorem manifestParity_packageTree :
    Seal.treeManifest (tabulated [([], emptyDigest)]) ⟨List.reverse, List.reverse_perm⟩
        "servers/demo" packageTree
      = treeManifest (tabulated [([], emptyDigest)]) "servers/demo" packageTree :=
  (manifestParity _ ⟨List.reverse, List.reverse_perm⟩ "servers/demo" packageTree (by decide)).2.2.2

end ClotoCore.Seal.Go
