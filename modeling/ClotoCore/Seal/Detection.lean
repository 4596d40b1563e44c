import ClotoCore.Seal.TreeSeal

/-!
# What a tree seal detects

A seal speaks for the entries of a tree that the exclusion rule leaves in: their
paths and what lies there.  Four kinds of entries escape it: those that are
neither file nor directory, those below a directory with an excluded name, and
files whose printed path passes for several lines or for another path.  Trees
without such entries have the same seal exactly when their entries are the same,
and every one of the four kinds admits trees that a seal cannot tell apart.
-/

namespace ClotoCore.Seal

open ClotoCore.Encoding

/-- An entry of a tree that the exclusion rule leaves in. -/
structure InstallTree.Entry (tree : InstallTree) (path : RelPath) (leaf : Leaf) : Prop where
  held : tree.Holds path leaf
  included : isExcluded path = false

/-- Two trees have the same entries. -/
def SameEntries (left right : InstallTree) : Prop :=
  ∀ path leaf, left.Entry path leaf ↔ right.Entry path leaf

/-- A seal minted over one tree is the seal of another tree, and verifies on
it, exactly when the entries are the same. -/
def Detects (sha256 : Digest) (root : String) (key : Bytes) (left right : InstallTree) : Prop :=
  ∀ (minting verifying : Listing) (minted : String),
    computeTreeSeal sha256 minting root key (some left) = .ok minted →
      (computeTreeSeal sha256 verifying root key (some right) = .ok minted ↔
        SameEntries left right) ∧
      (verifyTreeSeal sha256 verifying root key minted (some right) = .ok true ↔
        SameEntries left right)

/-- The kinds of entries that a seal does not pin down. -/
inductive Weakness where
  /-- Neither a file nor a directory. -/
  | unhashed
  /-- Below a directory whose own name is excluded. -/
  | unwalked
  /-- A file whose printed path holds a line break and the front of a line. -/
  | forgedLine
  /-- A file with a name that is not UTF-8. -/
  | lossyName
  deriving DecidableEq

/-- An entry is of a kind that a seal does not pin down. -/
def Shows (sha256 : Digest) (path : RelPath) (leaf : Leaf) : Weakness → Prop
  | .unhashed => ∀ content, leaf ≠ .file content
  | .unwalked => ¬Kept isExcluded [] path
  | .forgedLine => ForgesLine sha256 (printable path)
  | .lossyName => ∃ name ∈ path, ¬IsUtf8 name

/-- The entries of a tree are of no kind but the admitted ones. -/
def AdmittedBy (sha256 : Digest) (admits : Weakness → Prop) (tree : InstallTree) : Prop :=
  ∀ path leaf, tree.Entry path leaf → ∀ weakness, Shows sha256 path leaf weakness → admits weakness

/-! ## Paths of a tree -/

theorem InstallTree.Holds.ne_nil {tree : InstallTree} {path : RelPath} {leaf : Leaf}
    (held : tree.Holds path leaf) : path ≠ [] := by
  rintro rfl
  simp [InstallTree.Holds, InstallTree.root, Node.at] at held

theorem InstallTree.Holds.isName {tree : InstallTree} {path : RelPath} {leaf : Leaf}
    (held : tree.Holds path leaf) : ∀ name ∈ path, IsName name := by
  have rootWellFormed : tree.root.WellFormed := tree.wellFormed
  exact isName_of_at rootWellFormed held

/-- The last path on the way down is the path itself. -/
theorem Kept.last {skipped : RelPath → Bool} {start relative : RelPath}
    (kept : Kept skipped start relative) (nonempty : relative ≠ []) :
    skipped (start ++ relative) = false := by
  induction relative generalizing start with
  | nil => exact absurd rfl nonempty
  | cons name rest ih =>
      rcases rest with _ | ⟨next, more⟩
      · exact kept.1
      · have below := ih kept.2 (List.cons_ne_nil _ _)
        simpa using below

/-! ## Trees without weaknesses -/

section Plain

variable {sha256 : Digest}

/-- A tree all of whose entries a seal pins down. -/
def Plain (sha256 : Digest) (tree : InstallTree) : Prop :=
  ∀ path leaf, tree.Entry path leaf → ∀ weakness, ¬Shows sha256 path leaf weakness

theorem Plain.isUtf8 {tree : InstallTree} (plain : Plain sha256 tree) {path : RelPath} {leaf : Leaf}
    (entry : tree.Entry path leaf) : ∀ name ∈ path, IsUtf8 name := by
  intro name mem
  by_cases wellFormed : IsUtf8 name
  · exact wellFormed
  · exact absurd ⟨name, mem, wellFormed⟩ (plain path leaf entry .lossyName)

/-- The files in the manifest are entries of the tree. -/
theorem entry_of_mem_orderedFiles {tree : InstallTree} {path : RelPath}
    (mem : path ∈ orderedFiles tree isExcluded) :
    ∃ content, tree.Entry path (.file content) := by
  rcases (mem_orderedFiles tree isExcluded).mp mem with ⟨kept, content, held⟩
  exact ⟨content, held, by simpa using kept.last held.ne_nil⟩

theorem covered_eq {tree : InstallTree} {path : RelPath} {content : Bytes}
    (held : tree.Holds path (.file content)) :
    covered printable tree path = (printable path, content) := by
  rw [covered, InstallTree.read_eq_some_iff.mpr held]
  rfl

/-- In a plain tree every entry is a file of the manifest. -/
theorem Plain.mem_orderedFiles {tree : InstallTree} (plain : Plain sha256 tree) {path : RelPath}
    {leaf : Leaf} (entry : tree.Entry path leaf) :
    path ∈ orderedFiles tree isExcluded ∧ ∃ content, leaf = .file content := by
  have isFile : ∃ content, leaf = .file content := by
    cases leaf with
    | file content => exact ⟨content, rfl⟩
    | symlink target =>
        exact absurd (fun _ same => Leaf.noConfusion same) (plain path _ entry .unhashed)
    | special =>
        exact absurd (fun _ same => Leaf.noConfusion same) (plain path _ entry .unhashed)
  rcases isFile with ⟨content, rfl⟩
  have kept : Kept isExcluded [] path := by
    by_cases walked : Kept isExcluded [] path
    · exact walked
    · exact absurd walked (plain path _ entry .unwalked)
  exact ⟨(Seal.mem_orderedFiles tree isExcluded).mpr ⟨kept, content, entry.held⟩, content, rfl⟩

/-- The printed path of an entry of a plain tree is the path of no other. -/
theorem Plain.path_eq {left right : InstallTree} (leftPlain : Plain sha256 left)
    (rightPlain : Plain sha256 right) {leftPath rightPath : RelPath} {leftLeaf rightLeaf : Leaf}
    (leftEntry : left.Entry leftPath leftLeaf) (rightEntry : right.Entry rightPath rightLeaf)
    (equal : printable leftPath = printable rightPath) : leftPath = rightPath := by
  rw [printable_of_isUtf8 (leftPlain.isUtf8 leftEntry),
    printable_of_isUtf8 (rightPlain.isUtf8 rightEntry)] at equal
  exact joinSlash_injective leftEntry.held.ne_nil rightEntry.held.ne_nil
    (fun name mem => (leftEntry.held.isName name mem).unseparated)
    (fun name mem => (rightEntry.held.isName name mem).unseparated) equal

/-- Plain trees that seal the same files have the entries of one another. -/
theorem Plain.entry_of_sealedFiles_eq {left right : InstallTree} (leftPlain : Plain sha256 left)
    (rightPlain : Plain sha256 right) (equal : sealedFiles left = sealedFiles right)
    {path : RelPath} {leaf : Leaf} (entry : left.Entry path leaf) : right.Entry path leaf := by
  rcases leftPlain.mem_orderedFiles entry with ⟨mem, content, rfl⟩
  have sealed : (printable path, content) ∈ sealedFiles right := by
    rw [← equal, sealedFiles, ← covered_eq entry.held]
    exact List.mem_map_of_mem mem
  rcases List.mem_map.mp sealed with ⟨rightPath, rightMem, rightCovered⟩
  rcases entry_of_mem_orderedFiles rightMem with ⟨rightContent, rightEntry⟩
  rw [covered_eq rightEntry.held, Prod.mk.injEq] at rightCovered
  have pathEq := leftPlain.path_eq rightPlain entry rightEntry rightCovered.1.symm
  rw [pathEq, ← rightCovered.2]
  exact rightEntry

/-- Plain trees with the same entries have the same files, up to order. -/
theorem Plain.files_perm {left right : InstallTree} (leftPlain : Plain sha256 left)
    (rightPlain : Plain sha256 right) (same : SameEntries left right) :
    (left.files isExcluded).Perm (right.files isExcluded) := by
  have transfer : ∀ {first second : InstallTree}, Plain sha256 second →
      SameEntries first second → ∀ path ∈ first.files isExcluded,
        path ∈ second.files isExcluded := by
    intro first second secondPlain agree path mem
    have ordered : path ∈ orderedFiles first isExcluded := List.mem_mergeSort.mpr mem
    rcases entry_of_mem_orderedFiles ordered with ⟨content, entry⟩
    have secondEntry := (agree path _).mp entry
    exact List.mem_mergeSort.mp (secondPlain.mem_orderedFiles secondEntry).1
  apply (List.perm_ext_iff_of_nodup (nodup_files left) (nodup_files right)).mpr
  intro path
  exact ⟨transfer rightPlain same path,
    transfer leftPlain (fun path leaf => (same path leaf).symm) path⟩

/-- Plain trees with the same entries seal the same files. -/
theorem Plain.sealedFiles_eq {left right : InstallTree} (leftPlain : Plain sha256 left)
    (rightPlain : Plain sha256 right) (same : SameEntries left right) :
    sealedFiles left = sealedFiles right := by
  have ordered : orderedFiles left isExcluded = orderedFiles right isExcluded :=
    mergeSort_eq_of_perm (leftPlain.files_perm rightPlain same)
  rw [sealedFiles, sealedFiles, ← ordered]
  apply List.map_congr_left
  intro path mem
  rcases entry_of_mem_orderedFiles mem with ⟨content, entry⟩
  rw [covered_eq entry.held, covered_eq ((same path _).mp entry).held]

theorem Plain.not_forgesLine {tree : InstallTree} (plain : Plain sha256 tree) :
    ∀ file ∈ sealedFiles tree, ¬ForgesLine sha256 file.1 := by
  intro file mem
  rcases List.mem_map.mp mem with ⟨path, pathMem, rfl⟩
  rcases entry_of_mem_orderedFiles pathMem with ⟨content, entry⟩
  exact plain path _ entry .forgedLine

/-- The seal of plain trees is the same exactly when their entries are. -/
theorem Plain.treeSeal_eq_iff (injective : Function.Injective sha256) {key : Bytes}
    {left right : InstallTree} (leftPlain : Plain sha256 left) (rightPlain : Plain sha256 right) :
    treeSeal sha256 key left = treeSeal sha256 key right ↔ SameEntries left right := by
  rw [Seal.treeSeal_eq_iff injective]
  constructor
  · intro equal
    have sealedEq := manifestLines_injective injective leftPlain.not_forgesLine
      rightPlain.not_forgesLine equal
    intro path leaf
    exact ⟨leftPlain.entry_of_sealedFiles_eq rightPlain sealedEq,
      rightPlain.entry_of_sealedFiles_eq leftPlain sealedEq.symm⟩
  · intro same
    rw [leftPlain.sealedFiles_eq rightPlain same]

end Plain

/-! ## Detection -/

section Detection

variable {sha256 : Digest} {root : String} {key : Bytes}

/-- The system may list directories as they are stored. -/
def storedOrder : Listing where
  order := id
  perm _ := List.Perm.refl _

theorem detects_iff_treeSeal {left right : InstallTree} :
    Detects sha256 root key left right ↔
      (Sealable left →
        (Sealable right ∧ treeSeal sha256 key left = treeSeal sha256 key right ↔
          SameEntries left right)) := by
  constructor
  · intro detects sealable
    have minted := (computeTreeSeal_eq_ok_iff sha256 storedOrder root).mpr
      ⟨sealable, (rfl : treeSeal sha256 key left = _)⟩
    rw [← (detects storedOrder storedOrder _ minted).1, computeTreeSeal_eq_ok_iff]
  · intro agree minting verifying minted mintedOk
    rcases (computeTreeSeal_eq_ok_iff sha256 minting root).mp mintedOk with ⟨sealable, rfl⟩
    have isSeal := isTreeSeal_treeSeal sha256 key left
    rw [verifyTreeSeal_eq_true_iff sha256 verifying root isSeal, computeTreeSeal_eq_ok_iff]
    exact ⟨agree sealable, agree sealable⟩

theorem Plain.detects (injective : Function.Injective sha256) {left right : InstallTree}
    (leftPlain : Plain sha256 left) (rightPlain : Plain sha256 right) :
    Detects sha256 root key left right := by
  rw [detects_iff_treeSeal, ← leftPlain.treeSeal_eq_iff injective rightPlain]
  intro sealable
  constructor
  · exact And.right
  · intro equal
    have same := (leftPlain.treeSeal_eq_iff injective rightPlain).mp equal
    have sizes := (leftPlain.files_perm rightPlain same).length_eq
    refine ⟨?_, equal⟩
    rw [Sealable, ← sizes]
    exact sealable

/-- Sealable trees with one manifest and different entries escape detection. -/
theorem not_detects {left right : InstallTree} (leftSealable : Sealable left)
    (rightSealable : Sealable right)
    (equal : manifestLines sha256 (sealedFiles left) = manifestLines sha256 (sealedFiles right))
    (different : ¬SameEntries left right) : ¬Detects sha256 root key left right := by
  rw [detects_iff_treeSeal]
  intro agree
  apply different
  apply (agree leftSealable).mp
  exact ⟨rightSealable, by rw [treeSeal, treeSeal, equal]⟩

end Detection

/-! ## Trees that escape -/

/-- Two trees whose entries are of one kind, that differ and have one manifest. -/
def Escapes (sha256 : Digest) (weakness : Weakness) : Prop :=
  ∃ left right, AdmittedBy sha256 (· = weakness) left ∧ AdmittedBy sha256 (· = weakness) right ∧
    Sealable left ∧ Sealable right ∧
    manifestLines sha256 (sealedFiles left) = manifestLines sha256 (sealedFiles right) ∧
    ¬SameEntries left right

section Escapes

variable {sha256 : Digest}

theorem newline_mem_of_forgesLine {printed : Bytes} (forges : ForgesLine sha256 printed) :
    0x0A ∈ printed := by
  rcases forges with ⟨content, within⟩
  exact within.subset List.mem_cons_self

/-- A file on a walked path with UTF-8 names and no line break is of no kind. -/
theorem not_shows_of_file {path : RelPath} {content : Bytes} (kept : Kept isExcluded [] path)
    (unbroken : 0x0A ∉ printable path) (wellFormed : ∀ name ∈ path, IsUtf8 name)
    (weakness : Weakness) : ¬Shows sha256 path (.file content) weakness := by
  cases weakness with
  | unhashed => exact fun shows => shows content rfl
  | unwalked => exact fun shows => shows kept
  | forgedLine => exact fun shows => unbroken (newline_mem_of_forgesLine shows)
  | lossyName => exact fun ⟨name, mem, illFormed⟩ => illFormed (wellFormed name mem)

/-- `server.py` -/
def serverName : Name := utf8 "server.py"

/-- A tree with nothing in it. -/
def emptyTree : InstallTree where
  entries := []
  wellFormed := trivial

theorem emptyTree_not_holds {path : RelPath} {leaf : Leaf} : ¬emptyTree.Holds path leaf := by
  rcases path with _ | ⟨first, rest⟩
  · simp [InstallTree.Holds, InstallTree.root, Node.at]
  · simp [InstallTree.Holds, InstallTree.root, emptyTree, Node.at_directory_cons]

theorem emptyTree_admittedBy (admits : Weakness → Prop) : AdmittedBy sha256 admits emptyTree :=
  fun _ _ entry => absurd entry.held emptyTree_not_holds

theorem not_sameEntries_emptyTree {tree : InstallTree} {path : RelPath} {leaf : Leaf}
    (entry : tree.Entry path leaf) : ¬SameEntries emptyTree tree :=
  fun same => emptyTree_not_holds ((same path leaf).mpr entry).held

/-- A tree of one entry. -/
def single (name : Name) (node : Node) (isName : IsName name) (wellFormed : node.WellFormed) :
    InstallTree where
  entries := [(name, node)]
  wellFormed := ⟨isName, by simp, wellFormed, trivial⟩

theorem single_holds_iff {name : Name} {node : Node} {isName : IsName name}
    {wellFormed : node.WellFormed} {path : RelPath} {leaf : Leaf} :
    (single name node isName wellFormed).Holds path leaf ↔
      ∃ rest, path = name :: rest ∧ node.at rest = some (.leaf leaf) := by
  rcases path with _ | ⟨first, rest⟩
  · simp [InstallTree.Holds, InstallTree.root, Node.at]
  · simp only [InstallTree.Holds, InstallTree.root, single, Node.at_directory_cons,
      List.lookup_cons,
      List.lookup_nil]
    by_cases same : first = name
    · simp [same]
    · have unequal : (first == name) = false := by simpa using same
      simp [unequal, same]

/-- A tree of one leaf. -/
def leafTree (name : Name) (leaf : Leaf) (isName : IsName name) : InstallTree :=
  single name (.leaf leaf) isName (Node.wellFormed_leaf leaf)

theorem leafTree_holds_iff {name : Name} {held : Leaf} {isName : IsName name} {path : RelPath}
    {leaf : Leaf} :
    (leafTree name held isName).Holds path leaf ↔ path = [name] ∧ leaf = held := by
  rw [leafTree, single_holds_iff]
  constructor
  · rintro ⟨rest, rfl, found⟩
    rcases rest with _ | ⟨next, more⟩
    · simp only [Node.at, Option.some.injEq, Node.leaf.injEq] at found
      exact ⟨rfl, found.symm⟩
    · simp [Node.at] at found
  · rintro ⟨rfl, rfl⟩
    exact ⟨[], rfl, rfl⟩

theorem leafTree_admittedBy {name : Name} {held : Leaf} {isName : IsName name}
    {admits : Weakness → Prop} (only : ∀ weakness, Shows sha256 [name] held weakness →
      admits weakness) : AdmittedBy sha256 admits (leafTree name held isName) := by
  intro path leaf entry
  rcases leafTree_holds_iff.mp entry.held with ⟨rfl, rfl⟩
  exact only

theorem leafTree_files {name : Name} {leaf : Leaf} {isName : IsName name}
    (included : isExcluded [name] = false) :
    (leafTree name leaf isName).files isExcluded = (fileOf ([name], leaf)).toList :=
  filesUnder_leaf leaf included

theorem fileTree_sealedFiles {name : Name} {content : Bytes} {isName : IsName name}
    (included : isExcluded [name] = false) :
    sealedFiles (leafTree name (.file content) isName) = [(printable [name], content)] := by
  have held : (leafTree name (.file content) isName).Holds [name] (.file content) :=
    leafTree_holds_iff.mpr ⟨rfl, rfl⟩
  rw [sealedFiles, orderedFiles, leafTree_files included]
  simp [fileOf, covered_eq held]

theorem linkTree_sealedFiles {name : Name} {target : Bytes} {isName : IsName name}
    (included : isExcluded [name] = false) :
    sealedFiles (leafTree name (.symlink target) isName) = [] := by
  rw [sealedFiles, orderedFiles, leafTree_files included]
  simp [fileOf]

theorem leafTree_sealable {name : Name} {leaf : Leaf} {isName : IsName name}
    (included : isExcluded [name] = false) : Sealable (leafTree name leaf isName) := by
  rw [Sealable, leafTree_files included, maxManifestFiles]
  cases fileOf ([name], leaf) <;> simp

theorem emptyTree_sealedFiles : sealedFiles emptyTree = [] := by
  simp [sealedFiles, orderedFiles, InstallTree.files, filesUnder, emptyTree, reachedUnder]

theorem emptyTree_sealable : Sealable emptyTree := by
  simp [Sealable, InstallTree.files, filesUnder, emptyTree, reachedUnder]

/-- A symbolic link leaves no trace in the manifest. -/
theorem unhashed_escapes : Escapes sha256 .unhashed := by
  have isName : IsName serverName := by decide
  have included : isExcluded [serverName] = false := by decide
  have utf8Names : ∀ name ∈ [serverName], IsUtf8 name := by decide
  refine ⟨emptyTree, leafTree serverName (.symlink (utf8 "/tmp/server.py")) isName,
    emptyTree_admittedBy _, leafTree_admittedBy ?_, emptyTree_sealable, leafTree_sealable included,
    ?_, not_sameEntries_emptyTree ⟨leafTree_holds_iff.mpr ⟨rfl, rfl⟩, included⟩⟩
  · intro weakness shows
    cases weakness with
    | unhashed => rfl
    | unwalked => exact absurd ⟨included, trivial⟩ shows
    | forgedLine => exact absurd (newline_mem_of_forgesLine shows) (by decide)
    | lossyName =>
        rcases shows with ⟨name, mem, illFormed⟩
        exact absurd (utf8Names name mem) illFormed
  · rw [emptyTree_sealedFiles, linkTree_sealedFiles included]

/-- A name that is not UTF-8 is printed like another one. -/
theorem lossyName_escapes : Escapes sha256 .lossyName := by
  have leftIsName : IsName [0xFF] := by decide
  have rightIsName : IsName [0xFE] := by decide
  have leftIncluded : isExcluded [[0xFF]] = false := by decide
  have rightIncluded : isExcluded [[0xFE]] = false := by decide
  refine ⟨leafTree [0xFF] (.file []) leftIsName, leafTree [0xFE] (.file []) rightIsName,
    leafTree_admittedBy ?_, leafTree_admittedBy ?_, leafTree_sealable leftIncluded,
    leafTree_sealable rightIncluded, ?_, ?_⟩
  · intro weakness shows
    cases weakness with
    | unhashed => exact absurd rfl (shows [])
    | unwalked => exact absurd ⟨leftIncluded, trivial⟩ shows
    | forgedLine => exact absurd (newline_mem_of_forgesLine shows) (by decide)
    | lossyName => rfl
  · intro weakness shows
    cases weakness with
    | unhashed => exact absurd rfl (shows [])
    | unwalked => exact absurd ⟨rightIncluded, trivial⟩ shows
    | forgedLine => exact absurd (newline_mem_of_forgesLine shows) (by decide)
    | lossyName => rfl
  · have printedEq : printable [[0xFF]] = printable [[0xFE]] := by decide
    rw [fileTree_sealedFiles leftIncluded, fileTree_sealedFiles rightIncluded, printedEq]
  · intro same
    have moved := ((same [[0xFF]] (.file [])).mp ⟨leafTree_holds_iff.mpr ⟨rfl, rfl⟩, leftIncluded⟩)
    have pathEq := (leafTree_holds_iff.mp moved.held).1
    simp at pathEq

/-- `demo.pyc` -/
def bytecodeName : Name := utf8 "demo.pyc"

/-- A directory with the name of a bytecode file. -/
def bytecodeDirectory : Node :=
  .directory [(serverName, .leaf (.file []))]

theorem bytecodeDirectory_wellFormed : bytecodeDirectory.WellFormed :=
  ⟨by decide, by simp, trivial, trivial⟩

/-- A tree with one directory that the walk leaves out. -/
def unwalkedTree : InstallTree :=
  single bytecodeName bytecodeDirectory (by decide) bytecodeDirectory_wellFormed

theorem unwalkedTree_holds_iff {path : RelPath} {leaf : Leaf} :
    unwalkedTree.Holds path leaf ↔ path = [bytecodeName, serverName] ∧ leaf = .file [] := by
  have inner : ∀ rest, bytecodeDirectory.at rest = some (.leaf leaf) ↔
      rest = [serverName] ∧ leaf = .file [] := by
    intro rest
    have held : (leafTree serverName (.file []) (by decide)).Holds rest leaf ↔ _ :=
      leafTree_holds_iff
    exact held
  rw [unwalkedTree, single_holds_iff]
  constructor
  · rintro ⟨rest, rfl, found⟩
    rcases (inner rest).mp found with ⟨rfl, rfl⟩
    exact ⟨rfl, rfl⟩
  · rintro ⟨rfl, rfl⟩
    exact ⟨[serverName], rfl, (inner _).mpr ⟨rfl, rfl⟩⟩

/-- A directory with an excluded name is not walked, whatever its files are called. -/
theorem unwalked_escapes : Escapes sha256 .unwalked := by
  have included : isExcluded [bytecodeName, serverName] = false := by decide
  have hidden : isExcluded [bytecodeName] = true := by decide
  have utf8Names : ∀ name ∈ [bytecodeName, serverName], IsUtf8 name := by decide
  have files : unwalkedTree.files isExcluded = [] := filesUnder_hidden bytecodeDirectory hidden
  have entry : unwalkedTree.Entry [bytecodeName, serverName] (.file []) :=
    ⟨unwalkedTree_holds_iff.mpr ⟨rfl, rfl⟩, included⟩
  refine ⟨emptyTree, unwalkedTree, emptyTree_admittedBy _, ?_, emptyTree_sealable, ?_, ?_,
    not_sameEntries_emptyTree entry⟩
  · intro path leaf entry weakness shows
    rcases unwalkedTree_holds_iff.mp entry.held with ⟨rfl, rfl⟩
    cases weakness with
    | unhashed => exact absurd rfl (shows [])
    | unwalked => rfl
    | forgedLine => exact absurd (newline_mem_of_forgesLine shows) (by decide)
    | lossyName =>
        rcases shows with ⟨name, mem, illFormed⟩
        exact absurd (utf8Names name mem) illFormed
  · rw [Sealable, files]
    exact Nat.zero_le _
  · rw [emptyTree_sealedFiles, sealedFiles, orderedFiles, files]
    simp

/-- A name that prints as the end of one line and the whole of the next. -/
def forgedName (sha256 : Digest) : Name :=
  0x61 :: 0x0A :: lineFront sha256 [] ++ [0x62]

/-- The bytes a forged name is made of. -/
def forgedBytes : Bytes :=
  [0x61, 0x0A, 0x20, 0x62] ++ hexDigits.flatMap String.utf8EncodeChar

theorem mem_forgedBytes {byte : UInt8} (mem : byte ∈ forgedName sha256) : byte ∈ forgedBytes := by
  have blank : utf8 "  " = [0x20, 0x20] := by decide
  simp only [forgedName, lineFront, blank, List.cons_append, List.append_assoc, List.nil_append,
    List.mem_cons, List.mem_append, List.not_mem_nil, or_false] at mem
  rcases mem with rfl | rfl | inHex | rfl | rfl | rfl
  · decide
  · decide
  · exact List.mem_append_right _ (mem_utf8_hexEncode inHex)
  · decide
  · decide
  · decide

theorem forgedName_notMem {byte : UInt8} (absent : byte ∉ forgedBytes) :
    byte ∉ forgedName sha256 :=
  fun mem => absent (mem_forgedBytes mem)

theorem isUtf8_forgedName : IsUtf8 (forgedName sha256) := by
  have ascii : (forgedBytes.all fun byte => byte < 0x80) = true := by decide
  exact isUtf8_of_ascii fun byte mem =>
    of_decide_eq_true (List.all_eq_true.mp ascii byte (mem_forgedBytes mem))

theorem isName_forgedName : IsName (forgedName sha256) where
  nonempty := List.cons_ne_nil _ _
  unseparated := forgedName_notMem (by decide)
  terminated := forgedName_notMem (by decide)
  notSelf := by
    intro same
    have dot : (0x2E : UInt8) ∈ utf8 "." := by decide
    rw [← same] at dot
    exact forgedName_notMem (by decide) dot
  notParent := by
    intro same
    have dot : (0x2E : UInt8) ∈ utf8 ".." := by decide
    rw [← same] at dot
    exact forgedName_notMem (by decide) dot

theorem forgedName_included : isExcluded [forgedName sha256] = false := by
  apply isExcluded_singleton_of_noDot isUtf8_forgedName (forgedName_notMem (by decide))
  · intro same
    have underscore : (0x5F : UInt8) ∈ utf8 "__pycache__" := by decide
    rw [← same] at underscore
    exact forgedName_notMem (by decide) underscore
  · intro same
    have underscore : (0x5F : UInt8) ∈ utf8 "node_modules" := by decide
    rw [← same] at underscore
    exact forgedName_notMem (by decide) underscore

/-- Two files with the same content. -/
def pairTree : InstallTree where
  entries := [([0x61], .leaf (.file [])), ([0x62], .leaf (.file []))]
  wellFormed := ⟨by decide, by decide, trivial, by decide, by decide, trivial, trivial⟩

theorem pairTree_holds {path : RelPath} {leaf : Leaf} (held : pairTree.Holds path leaf) :
    (path = [[0x61]] ∨ path = [[0x62]]) ∧ leaf = .file [] := by
  rcases path with _ | ⟨first, rest⟩
  · simp [InstallTree.Holds, InstallTree.root, Node.at] at held
  · rw [InstallTree.Holds, InstallTree.root, Node.at_directory_cons,
      Option.bind_eq_some_iff] at held
    rcases held with ⟨node, found, restAt⟩
    have mem := WellFormed.mem_of_lookup_eq_some found
    simp only [pairTree, List.mem_cons, Prod.mk.injEq, List.not_mem_nil, or_false] at mem
    have nodeEq : node = .leaf (.file []) := by
      rcases mem with ⟨_, nodeEq⟩ | ⟨_, nodeEq⟩ <;> exact nodeEq
    rw [nodeEq] at restAt
    rcases rest with _ | ⟨next, more⟩
    · simp only [Node.at, Option.some.injEq, Node.leaf.injEq] at restAt
      rcases mem with ⟨rfl, _⟩ | ⟨rfl, _⟩
      · exact ⟨Or.inl rfl, restAt.symm⟩
      · exact ⟨Or.inr rfl, restAt.symm⟩
    · simp [Node.at] at restAt

theorem pairTree_plain : Plain sha256 pairTree := by
  intro path leaf entry
  rcases pairTree_holds entry.held with ⟨rfl | rfl, rfl⟩
  · exact not_shows_of_file ⟨by decide, trivial⟩ (by decide) (by decide)
  · exact not_shows_of_file ⟨by decide, trivial⟩ (by decide) (by decide)

theorem pairTree_files : pairTree.files isExcluded = [[[0x61]], [[0x62]]] := by
  decide +kernel

theorem pairTree_sealedFiles : sealedFiles pairTree = [([0x61], []), ([0x62], [])] := by
  have sorted : List.Pairwise (fun a b => pathLe a b = true) [[[0x61]], [[0x62]]] := by decide
  rw [sealedFiles, orderedFiles, pairTree_files, List.mergeSort_of_pairwise sorted]
  decide +kernel

/-- One file whose name passes for two lines. -/
def forgedTree (sha256 : Digest) : InstallTree :=
  leafTree (forgedName sha256) (.file []) isName_forgedName

theorem forgedTree_sealedFiles :
    sealedFiles (forgedTree sha256) = [(forgedName sha256, [])] := by
  have wellFormed : ∀ name ∈ [forgedName sha256], IsUtf8 name := by
    intro name mem
    rw [List.mem_singleton.mp mem]
    exact isUtf8_forgedName
  rw [forgedTree, fileTree_sealedFiles forgedName_included, printable_of_isUtf8 wellFormed,
    joinSlash_singleton]

theorem pairTree_manifest :
    manifestLines sha256 (sealedFiles pairTree)
      = manifestLines sha256 (sealedFiles (forgedTree sha256)) := by
  rw [pairTree_sealedFiles, forgedTree_sealedFiles]
  simp [manifestLines, manifestLine_eq, forgedName]

/-- A line break in a name makes one file pass for two. -/
theorem forgedLine_escapes : Escapes sha256 .forgedLine := by
  refine ⟨pairTree, forgedTree sha256, ?_, leafTree_admittedBy ?_, ?_,
    leafTree_sealable forgedName_included, pairTree_manifest, ?_⟩
  · intro path leaf entry weakness shows
    exact absurd shows (pairTree_plain path leaf entry weakness)
  · intro weakness shows
    cases weakness with
    | unhashed => exact absurd rfl (shows [])
    | unwalked => exact absurd ⟨forgedName_included, trivial⟩ shows
    | forgedLine => rfl
    | lossyName =>
        rcases shows with ⟨name, mem, illFormed⟩
        rw [List.mem_singleton.mp mem] at illFormed
        exact absurd isUtf8_forgedName illFormed
  · simp [Sealable, pairTree_files, maxManifestFiles]
  · intro same
    have entry : (forgedTree sha256).Entry [forgedName sha256] (.file []) :=
      ⟨leafTree_holds_iff.mpr ⟨rfl, rfl⟩, forgedName_included⟩
    have moved := (same _ _).mpr entry
    rcases (pairTree_holds moved.held).1 with pathEq | pathEq
    · simp [forgedName] at pathEq
    · simp [forgedName] at pathEq

/-- Every kind of weakness has trees that escape. -/
theorem escapes (weakness : Weakness) : Escapes sha256 weakness := by
  cases weakness with
  | unhashed => exact unhashed_escapes
  | unwalked => exact unwalked_escapes
  | forgedLine => exact forgedLine_escapes
  | lossyName => exact lossyName_escapes

end Escapes

/-! ## When a seal detects a change -/

theorem AdmittedBy.mono {sha256 : Digest} {admits more : Weakness → Prop} {tree : InstallTree}
    (admitted : AdmittedBy sha256 admits tree) (sub : ∀ weakness, admits weakness → more weakness) :
    AdmittedBy sha256 more tree :=
  fun path leaf entry weakness shows => sub weakness (admitted path leaf entry weakness shows)

/-- A seal tells the trees of a class apart exactly when the class has none of
the four kinds of entries. -/
theorem detects_iff_noWeakness {sha256 : Digest} (injective : Function.Injective sha256)
    (root : String) (key : Bytes) (admits : Weakness → Prop) :
    (∀ left right, AdmittedBy sha256 admits left → AdmittedBy sha256 admits right →
      Detects sha256 root key left right) ↔ ∀ weakness, ¬admits weakness := by
  constructor
  · intro detects weakness admitted
    have escaping : Escapes sha256 weakness := escapes weakness
    rcases escaping with
      ⟨left, right, leftAdmitted, rightAdmitted, leftSealable, rightSealable, manifestEq, different⟩
    have sub : ∀ other, other = weakness → admits other := by
      rintro other rfl
      exact admitted
    exact not_detects leftSealable rightSealable manifestEq different
      (detects left right (leftAdmitted.mono sub) (rightAdmitted.mono sub))
  · intro none left right leftAdmitted rightAdmitted
    have leftPlain : Plain sha256 left := fun path leaf entry weakness shows =>
      none weakness (leftAdmitted path leaf entry weakness shows)
    have rightPlain : Plain sha256 right := fun path leaf entry weakness shows =>
      none weakness (rightAdmitted path leaf entry weakness shows)
    exact leftPlain.detects injective rightPlain

/-! ## Recorded digests -/

/-- The inner digest of the empty manifest under the empty key. -/
def emptyInner : Bytes :=
  [0xE7, 0x2B, 0xBD, 0x4D, 0x42, 0x9A, 0xC9, 0x14, 0xA8, 0xA6, 0xC5, 0xBD, 0x49, 0x63,
   0x2F, 0xF6, 0xB0, 0x0D, 0x4F, 0xEF, 0x42, 0xAF, 0xB4, 0x43, 0xF0, 0xB8, 0x04, 0x7D,
   0xF0, 0x6C, 0x85, 0xD2]

/-- The outer digest of the empty manifest under the empty key. -/
def emptyOuter : Bytes :=
  [0xB6, 0x13, 0x67, 0x9A, 0x08, 0x14, 0xD9, 0xEC, 0x77, 0x2F, 0x95, 0xD7, 0x78, 0xC3,
   0x5F, 0xC5, 0xFF, 0x16, 0x97, 0xC4, 0x93, 0x71, 0x56, 0x53, 0xC6, 0xC7, 0x12, 0x14,
   0x42, 0x92, 0xC5, 0xAD]

/-- The inner digest of the manifest of one empty `server.py`. -/
def serverInner : Bytes :=
  [0xB6, 0x03, 0xB7, 0x70, 0x51, 0x99, 0x5C, 0x17, 0x2F, 0xC3, 0xE3, 0xFC, 0x42, 0xED,
   0xA2, 0xFB, 0x37, 0xBF, 0x53, 0x9C, 0x82, 0x79, 0xB5, 0x65, 0xF5, 0x33, 0xD7, 0x1F,
   0xA0, 0x03, 0x2C, 0x49]

/-- The outer digest of the manifest of one empty `server.py`. -/
def serverOuter : Bytes :=
  [0xA0, 0xEF, 0xE2, 0x0C, 0xD3, 0xC9, 0xB6, 0x52, 0xB5, 0xA9, 0xA9, 0x90, 0xAF, 0xBA,
   0x63, 0xD0, 0xD8, 0x39, 0xDA, 0x8E, 0xD9, 0xFB, 0x64, 0xE1, 0xF9, 0x8D, 0x5B, 0x3C,
   0x5A, 0x2E, 0x99, 0xDE]

/-- SHA-256 on the texts that are hashed for the two trees below. -/
def recordedSha256 : Digest :=
  tabulated
    [([], emptyDigest),
      (List.replicate 64 0x36, emptyInner),
      (List.replicate 64 0x5C ++ emptyInner, emptyOuter),
      (List.replicate 64 0x36 ++ utf8 (hexEncode emptyDigest ++ "  server.py\n"), serverInner),
      (List.replicate 64 0x5C ++ serverInner, serverOuter)]

theorem recordedSha256_injective : Function.Injective recordedSha256 :=
  tabulated_injective (by decide) (by decide)

/-- A tree of one empty `server.py`. -/
def serverTree : InstallTree :=
  leafTree serverName (.file []) (by decide)

theorem serverTree_plain (sha256 : Digest) : Plain sha256 serverTree := by
  intro path leaf entry
  rcases leafTree_holds_iff.mp entry.held with ⟨rfl, rfl⟩
  exact not_shows_of_file ⟨by decide, trivial⟩ (by decide) (by decide)

/-- Removing `server.py` is detected. -/
theorem detects_iff_noWeakness_serverTree :
    Detects recordedSha256 "servers/demo" [] serverTree emptyTree :=
  (detects_iff_noWeakness recordedSha256_injective "servers/demo" [] fun _ => False).mpr
    (fun _ admitted => admitted) serverTree emptyTree (serverTree_plain recordedSha256)
    (emptyTree_admittedBy _)

/-- A tree of one symbolic link. -/
def linkTree : InstallTree :=
  leafTree serverName (.symlink (utf8 "/tmp/server.py")) (by decide)

/-- Seals do not detect every change: a symbolic link put into a tree keeps the
seal. -/
theorem not_sealDetection :
    ¬∀ (sha256 : Digest), Function.Injective sha256 → ∀ (root : String) (key : Bytes)
      (left right : InstallTree), Detects sha256 root key left right := by
  intro detection
  have included : isExcluded [serverName] = false := by decide
  have manifestEq : manifestLines recordedSha256 (sealedFiles emptyTree)
      = manifestLines recordedSha256 (sealedFiles linkTree) := by
    rw [emptyTree_sealedFiles, linkTree, linkTree_sealedFiles included]
  have different : ¬SameEntries emptyTree linkTree :=
    not_sameEntries_emptyTree ⟨leafTree_holds_iff.mpr ⟨rfl, rfl⟩, included⟩
  exact not_detects emptyTree_sealable (leafTree_sealable included) manifestEq different
    (detection recordedSha256 recordedSha256_injective "servers/demo" [] emptyTree linkTree)

end ClotoCore.Seal
