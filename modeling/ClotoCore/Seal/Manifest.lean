import ClotoCore.Encoding.Digest
import ClotoCore.Seal.Walk

/-!
# The canonical manifest

One line a file, `HEX  relpath`, in the order of the path components.  The
order of the lines depends on the set of files alone, and so does the text:
every file the walk collects can be read again.
-/

namespace ClotoCore.Seal

open ClotoCore.Encoding

/-! ## Names and paths -/

/-- A name cut at its last dot, unless it has none. -/
def splitAtLastDot : Name → Option (Bytes × Bytes)
  | [] => none
  | byte :: rest =>
      match splitAtLastDot rest with
      | some (before, after) => some (byte :: before, after)
      | none => if byte = 0x2E then some ([], rest) else none

theorem splitAtLastDot_eq_none {name : Name} (noDot : 0x2E ∉ name) :
    splitAtLastDot name = none := by
  induction name with
  | nil => rfl
  | cons byte rest ih =>
      simp only [List.mem_cons, not_or] at noDot
      rw [splitAtLastDot, ih noDot.2]
      exact if_neg (Ne.symm noDot.1)

/-- The order of paths: component by component, each component by its bytes. -/
def pathLe (left right : RelPath) : Bool :=
  decide (left ≤ right)

theorem pathLe_trans (first second third : RelPath) (firstLe : pathLe first second = true)
    (secondLe : pathLe second third = true) : pathLe first third = true := by
  simp only [pathLe, decide_eq_true_eq] at firstLe secondLe ⊢
  exact List.le_trans firstLe secondLe

theorem pathLe_total (left right : RelPath) : (pathLe left right || pathLe right left) = true := by
  simp only [pathLe, Bool.or_eq_true, decide_eq_true_eq]
  exact List.le_total left right

theorem pathLe_antisymm {left right : RelPath} (le : pathLe left right = true)
    (ge : pathLe right left = true) : left = right := by
  simp only [pathLe, decide_eq_true_eq] at le ge
  exact List.le_antisymm le ge

/-- The sorted files depend only on which files there are. -/
theorem mergeSort_eq_of_perm {left right : List RelPath} (same : left.Perm right) :
    left.mergeSort pathLe = right.mergeSort pathLe := by
  have sortedSame : (left.mergeSort pathLe).Perm (right.mergeSort pathLe) :=
    ((List.mergeSort_perm left pathLe).trans same).trans (List.mergeSort_perm right pathLe).symm
  have leftSorted := List.pairwise_mergeSort pathLe_trans pathLe_total left
  have rightSorted := List.pairwise_mergeSort pathLe_trans pathLe_total right
  exact List.Perm.eq_of_pairwise (fun _ _ _ _ => pathLe_antisymm) leftSorted rightSorted sortedSame

/-- Components with `/` between them. -/
def joinSlash (components : List Bytes) : Bytes :=
  List.intercalate [separator] components

theorem joinSlash_cons_cons (first second : Bytes) (rest : List Bytes) :
    joinSlash (first :: second :: rest) = first ++ separator :: joinSlash (second :: rest) := by
  simp [joinSlash]

theorem joinSlash_singleton (component : Bytes) : joinSlash [component] = component := by
  simp [joinSlash]

/-- Components without a `/` are found again in the joined path. -/
theorem joinSlash_injective {left right : List Bytes} (leftNonempty : left ≠ [])
    (rightNonempty : right ≠ []) (leftFree : ∀ component ∈ left, separator ∉ component)
    (rightFree : ∀ component ∈ right, separator ∉ component)
    (equal : joinSlash left = joinSlash right) : left = right := by
  induction left generalizing right with
  | nil => exact absurd rfl leftNonempty
  | cons first rest ih =>
      rcases right with _ | ⟨rightFirst, rightRest⟩
      · exact absurd rfl rightNonempty
      · have firstFree := leftFree first List.mem_cons_self
        have rightFirstFree := rightFree rightFirst List.mem_cons_self
        cases rest with
        | nil =>
            cases rightRest with
            | nil =>
                rw [joinSlash_singleton, joinSlash_singleton] at equal
                rw [equal]
            | cons rightSecond rightMore =>
                rw [joinSlash_singleton, joinSlash_cons_cons] at equal
                simp [equal] at firstFree
        | cons second more =>
            cases rightRest with
            | nil =>
                rw [joinSlash_singleton, joinSlash_cons_cons] at equal
                simp [← equal] at rightFirstFree
            | cons rightSecond rightMore =>
                rw [joinSlash_cons_cons, joinSlash_cons_cons] at equal
                rcases append_cons_inj_of_notMem firstFree rightFirstFree equal
                  with ⟨firstEq, restEq⟩
                have tailEq := ih (List.cons_ne_nil _ _) (List.cons_ne_nil _ _)
                  (fun component mem => leftFree component (List.mem_cons_of_mem _ mem))
                  (fun component mem => rightFree component (List.mem_cons_of_mem _ mem)) restEq
                rw [firstEq, tailEq]

/-! ## Reading the files -/

/-- `std::fs::read`, and `os.ReadFile`, of a file of the tree. -/
def InstallTree.read (tree : InstallTree) (path : RelPath) : Option Bytes :=
  match tree.root.at path with
  | some (.leaf (.file content)) => some content
  | _ => none

theorem InstallTree.read_eq_some_iff {tree : InstallTree} {path : RelPath} {content : Bytes} :
    tree.read path = some content ↔ tree.Holds path (.file content) := by
  simp only [InstallTree.read, InstallTree.Holds]
  split <;> simp_all

/-- The failure of a file that cannot be read. -/
def unreadable (root : String) (printed : Bytes) : Bytes :=
  utf8 s!"Failed to read file for sealing: {root}/" ++ printed

/-- A line of the manifest. -/
def manifestLine (sha256 : Digest) (printed content : Bytes) : Bytes :=
  utf8 (hexEncode (sha256 content)) ++ utf8 "  " ++ printed ++ utf8 "\n"

section Manifest

variable (sha256 : Digest) (printed : RelPath → Bytes) (root : String) (tree : InstallTree)

/-- The body of the loop that writes the manifest. -/
def writeFile (manifest : Bytes) (relative : RelPath) : Except Bytes Bytes :=
  match tree.read relative with
  | none => .error (unreadable root (printed relative))
  | some content => .ok (manifest ++ manifestLine sha256 (printed relative) content)

/-- The loop that writes the manifest. -/
def writeManifest (files : List RelPath) : Except Bytes Bytes :=
  files.foldlM (writeFile sha256 printed root tree) []

/-- What the manifest covers of a file of the tree: the printed path and the
content. -/
def covered (path : RelPath) : Bytes × Bytes :=
  (printed path, (tree.read path).getD [])

/-- The lines of files, each a printed path with its content. -/
def manifestLines (files : List (Bytes × Bytes)) : Bytes :=
  files.flatMap fun file => manifestLine sha256 file.1 file.2

theorem foldlM_writeFile (files : List RelPath) (start : Bytes)
    (readable : ∀ path ∈ files, ∃ content, tree.read path = some content) :
    files.foldlM (writeFile sha256 printed root tree) start
      = .ok (start ++ manifestLines sha256 (files.map (covered printed tree))) := by
  induction files generalizing start with
  | nil => simp [pure, Except.pure, manifestLines]
  | cons path rest ih =>
      rcases readable path List.mem_cons_self with ⟨content, contentRead⟩
      have restReadable : ∀ path ∈ rest, ∃ content, tree.read path = some content := fun path mem =>
        readable path (List.mem_cons_of_mem _ mem)
      rw [List.foldlM_cons, writeFile, contentRead]
      simp only [bind, Except.bind]
      rw [ih _ restReadable]
      simp [manifestLines, covered, contentRead]

/-- The manifest of readable files is their lines, one after another. -/
theorem writeManifest_eq_ok (files : List RelPath)
    (readable : ∀ path ∈ files, ∃ content, tree.read path = some content) :
    writeManifest sha256 printed root tree files
      = .ok (manifestLines sha256 (files.map (covered printed tree))) := by
  rw [writeManifest, foldlM_writeFile sha256 printed root tree files [] readable, List.nil_append]

/-! ## The manifest of a tree -/

variable (skipped : RelPath → Bool) (listing : Listing)

/-- The files of a tree in the order of the manifest. -/
def orderedFiles : List RelPath :=
  (tree.files skipped).mergeSort pathLe

/-- Walking and sorting gives the files in manifest order, or refuses the tree. -/
theorem sorted_walkTree :
    (walkTree skipped listing root (walkFrom tree)).map (·.mergeSort pathLe)
      = if (tree.files skipped).length ≤ maxManifestFiles then .ok (orderedFiles tree skipped)
        else .error (tooManyFiles root) := by
  have collects : Collects root (tree.files skipped) _ := walkTree_walkFrom listing tree
  cases walked : walkTree skipped listing root (walkFrom tree) with
  | ok files =>
      rw [walked] at collects
      rw [if_pos collects.2, Except.map, mergeSort_eq_of_perm collects.1]
      rfl
  | error text =>
      rw [walked] at collects
      rw [if_neg (Nat.not_le_of_lt collects.2), collects.1]
      rfl

theorem mem_orderedFiles {path : RelPath} :
    path ∈ orderedFiles tree skipped ↔
      Kept skipped [] path ∧ ∃ content, tree.Holds path (.file content) := by
  rw [orderedFiles, List.mem_mergeSort, mem_files]

theorem orderedFiles_readable :
    ∀ path ∈ orderedFiles tree skipped, ∃ content, tree.read path = some content := by
  intro path mem
  rcases (mem_orderedFiles tree skipped).mp mem with ⟨_, content, held⟩
  exact ⟨content, InstallTree.read_eq_some_iff.mpr held⟩

/-- The manifest of a tree within the ceiling is the lines of its files. -/
theorem manifest_eq :
    ((walkTree skipped listing root (walkFrom tree)).map (·.mergeSort pathLe)).bind
        (writeManifest sha256 printed root tree)
      = if (tree.files skipped).length ≤ maxManifestFiles then
          .ok (manifestLines sha256 ((orderedFiles tree skipped).map (covered printed tree)))
        else .error (tooManyFiles root) := by
  rw [sorted_walkTree]
  split
  · exact writeManifest_eq_ok sha256 printed root tree _ (orderedFiles_readable tree skipped)
  · rfl

end Manifest

/-! ## What the text determines -/

section Parsing

variable {sha256 : Digest}

/-- The front of a line, up to the printed path. -/
def lineFront (sha256 : Digest) (content : Bytes) : Bytes :=
  utf8 (hexEncode (sha256 content)) ++ utf8 "  "

/-- A printed path holds a line break and the front of a line behind it. -/
def ForgesLine (sha256 : Digest) (printed : Bytes) : Prop :=
  ∃ content, 0x0A :: lineFront sha256 content <:+: printed

theorem manifestLine_eq (printed content : Bytes) :
    manifestLine sha256 printed content = lineFront sha256 content ++ (printed ++ [0x0A]) := by
  have newline : utf8 "\n" = [0x0A] := by decide
  simp [manifestLine, lineFront, newline]

theorem newline_notMem_lineFront (content : Bytes) : 0x0A ∉ lineFront sha256 content := by
  intro mem
  rcases List.mem_append.mp mem with inHex | inBlank
  · have noDigit : (0x0A : UInt8) ∉ hexDigits.flatMap String.utf8EncodeChar := by decide
    exact noDigit (mem_utf8_hexEncode inHex)
  · have noBlank : (0x0A : UInt8) ∉ utf8 "  " := by decide
    exact noBlank inBlank

/-- Lines that begin alike have the same content and the same rest. -/
theorem lineFront_append_inj (injective : Function.Injective sha256) {left right : Bytes}
    {leftRest rightRest : Bytes}
    (equal : lineFront sha256 left ++ leftRest = lineFront sha256 right ++ rightRest) :
    left = right ∧ leftRest = rightRest := by
  have blank : utf8 "  " = [0x20, 0x20] := by decide
  have noDigit : (0x20 : UInt8) ∉ hexDigits.flatMap String.utf8EncodeChar := by decide
  simp only [lineFront, blank, List.append_assoc, List.cons_append, List.nil_append] at equal
  rcases append_cons_inj_of_notMem (fun mem => noDigit (mem_utf8_hexEncode mem))
    (fun mem => noDigit (mem_utf8_hexEncode mem)) equal with ⟨hexEq, restEq⟩
  have contentEq := injective (hexEncode_injective (utf8_injective hexEq))
  exact ⟨contentEq, (List.cons.inj restEq).2⟩

theorem manifestLines_cons (printed content : Bytes) (rest : List (Bytes × Bytes)) :
    manifestLines sha256 ((printed, content) :: rest)
      = lineFront sha256 content ++ (printed ++ 0x0A :: manifestLines sha256 rest) := by
  simp [manifestLines, manifestLine_eq]

/-- A printed path that runs past the end of another one's line takes in the
front of the line after it. -/
theorem forgesLine_of_overrun {left right rightRest : Bytes} {rest : List (Bytes × Bytes)}
    {overrun : Bytes} (longer : right = left ++ 0x0A :: overrun)
    (equal : manifestLines sha256 rest = overrun ++ 0x0A :: rightRest) :
    ForgesLine sha256 right := by
  rcases rest with _ | ⟨⟨printed, content⟩, more⟩
  · simp [manifestLines] at equal
  · rw [manifestLines_cons] at equal
    rcases exists_eq_append_of_notMem (newline_notMem_lineFront content) equal.symm
      with ⟨tail, overrunEq⟩
    exact ⟨content, left, tail, by simp [longer, overrunEq]⟩

theorem printed_eq_of_lines_eq {left right : Bytes} {leftRest rightRest : List (Bytes × Bytes)}
    (leftPlain : ¬ForgesLine sha256 left) (rightPlain : ¬ForgesLine sha256 right)
    (equal : left ++ 0x0A :: manifestLines sha256 leftRest
      = right ++ 0x0A :: manifestLines sha256 rightRest) :
    left = right ∧ manifestLines sha256 leftRest = manifestLines sha256 rightRest := by
  rcases List.append_eq_append_iff.mp equal with ⟨overrun, longer, rest⟩ | ⟨overrun, longer, rest⟩
  · cases overrun with
    | nil => exact ⟨by simpa using longer.symm, (List.cons.inj rest).2⟩
    | cons head overrun =>
        rcases List.cons.inj rest with ⟨headEq, restEq⟩
        rw [← headEq] at longer
        exact absurd (forgesLine_of_overrun longer restEq) rightPlain
  · cases overrun with
    | nil => exact ⟨by simpa using longer, (List.cons.inj rest).2.symm⟩
    | cons head overrun =>
        rcases List.cons.inj rest with ⟨headEq, restEq⟩
        rw [← headEq] at longer
        exact absurd (forgesLine_of_overrun longer restEq) leftPlain

/-- A manifest whose printed paths forge no line determines its files. -/
theorem manifestLines_injective (injective : Function.Injective sha256)
    {left right : List (Bytes × Bytes)} (leftPlain : ∀ file ∈ left, ¬ForgesLine sha256 file.1)
    (rightPlain : ∀ file ∈ right, ¬ForgesLine sha256 file.1)
    (equal : manifestLines sha256 left = manifestLines sha256 right) : left = right := by
  induction left generalizing right with
  | nil =>
      rcases right with _ | ⟨⟨printed, content⟩, rest⟩
      · rfl
      · simp [manifestLines, manifestLine_eq] at equal
  | cons file rest ih =>
      rcases file with ⟨printed, content⟩
      rcases right with _ | ⟨⟨rightPrinted, rightContent⟩, rightRest⟩
      · simp [manifestLines, manifestLine_eq] at equal
      · rw [manifestLines_cons, manifestLines_cons] at equal
        rcases lineFront_append_inj injective equal with ⟨contentEq, restEq⟩
        have printedPlain : ¬ForgesLine sha256 printed := leftPlain _ List.mem_cons_self
        have rightPrintedPlain : ¬ForgesLine sha256 rightPrinted :=
          rightPlain _ List.mem_cons_self
        rcases printed_eq_of_lines_eq printedPlain rightPrintedPlain restEq
          with ⟨printedEq, linesEq⟩
        have tailEq := ih (fun file mem => leftPlain file (List.mem_cons_of_mem _ mem))
          (fun file mem => rightPlain file (List.mem_cons_of_mem _ mem)) linesEq
        rw [contentEq, printedEq, tailEq]

end Parsing

end ClotoCore.Seal
