import ClotoCore.Encoding.Utf8Lossy
import Mathlib.Data.List.Infix

/-!
# Paths as the uninstaller handles them

A path is what a text spells between its separators.  Two paths are compared by their
components, without empty pieces and pieces that stand for the directory itself, and
one is within another if its components go on where the other's end.  The planner
cleans a path before it relates it to others; the executor does not.
-/

namespace ClotoCore.Defender

open ClotoCore.Encoding

/-- A file name, which need not be text. -/
abbrev Name := Bytes

/-- `target_os` -/
inductive Os where
  | linux
  | macos
  | windows
  deriving DecidableEq

/-- What a path spells between two separators. -/
inductive Piece where
  | empty
  | dot
  | up
  | normal (name : Name)
  deriving DecidableEq

/-- A path as it is spelled, on Windows behind the prefix of a drive or a share. -/
@[ext]
structure PathBuf where
  drive : Option Name
  rooted : Bool
  pieces : List Piece
  deriving DecidableEq

/-- `Component` -/
inductive Component where
  | drive (name : Name)
  | rootDir
  | curDir
  | parentDir
  | normal (name : Name)
  deriving DecidableEq

/-- The component of a piece that is not passed over. -/
def Piece.component? : Piece → Option Component
  | .empty | .dot => none
  | .up => some .parentDir
  | .normal name => some (.normal name)

namespace PathBuf

/-- What comes before the first piece. -/
def anchor (path : PathBuf) : List Component :=
  path.drive.toList.map .drive ++ if path.rooted then [.rootDir] else []

/-- `Path::components` -/
def components (path : PathBuf) : List Component :=
  path.anchor ++
    (if path.rooted = false ∧ path.pieces.head? = some .dot then [.curDir] else []) ++
    path.pieces.filterMap Piece.component?

/-- `Path::starts_with` -/
def startsWith (path dir : PathBuf) : Bool :=
  dir.components.isPrefixOf path.components

/-- `Path::is_absolute` -/
def isAbsolute (os : Os) (path : PathBuf) : Bool :=
  path.rooted && (os != .windows || path.drive.isSome)

/-- `Path::join` -/
def join (path other : PathBuf) : PathBuf :=
  if other.drive.isSome then other
  else if other.rooted then { other with drive := path.drive }
  else { path with pieces := path.pieces ++ other.pieces }

/-- `PathBuf::push` of one component. -/
def push (path : PathBuf) : Component → PathBuf
  | .drive name => ⟨some name, false, []⟩
  | .rootDir => { path with rooted := true, pieces := [] }
  | .curDir => { path with pieces := path.pieces ++ [.dot] }
  | .parentDir => { path with pieces := path.pieces ++ [.up] }
  | .normal name => { path with pieces := path.pieces ++ [.normal name] }

/-- `PathBuf::pop`, where only names have been pushed. -/
def pop (path : PathBuf) : Option PathBuf :=
  if path.pieces = [] then none else some { path with pieces := path.pieces.dropLast }

/-- No path at all. -/
def empty : PathBuf where
  drive := none
  rooted := false
  pieces := []

/-- The loop of `absolutize`. -/
def clean : PathBuf → List Component → Option PathBuf
  | out, [] => some out
  | out, .curDir :: rest => clean out rest
  | out, .parentDir :: rest => out.pop.bind fun out => clean out rest
  | out, component :: rest => clean (out.push component) rest

/-- `absolutize` -/
def absolutize (os : Os) (currentDir : Option PathBuf) (path : PathBuf) : Option PathBuf :=
  let base := if path.isAbsolute os then some path else currentDir.map fun dir => dir.join path
  base.bind fun base => clean empty base.components

/-- `is_filesystem_root` -/
def isFilesystemRoot (path : PathBuf) : Bool :=
  path.components.all fun component =>
    match component with
    | .drive _ | .rootDir => true
    | _ => false

/-- `Path::display`, read as a path again. -/
def display (path : PathBuf) : PathBuf where
  drive := path.drive.map toStringLossy
  rooted := path.rooted
  pieces := path.pieces.map fun piece =>
    match piece with
    | .normal name => .normal (toStringLossy name)
    | other => other

/-- `representable` -/
def representable (path : PathBuf) : Option PathBuf :=
  if path.display.components = path.components then some path.display else none

/-- `is_strict_descendant` -/
def isStrictDescendant (path dir : PathBuf) : Bool :=
  path.components != dir.components && path.startsWith dir

/-- Follow components, and stay where there is nothing above. -/
def settle : PathBuf → List Component → PathBuf
  | out, [] => out
  | out, .curDir :: rest => settle out rest
  | out, .parentDir :: rest => settle (out.pop.getD out) rest
  | out, component :: rest => settle (out.push component) rest

/-- The place that a path names, where no link is on the way. -/
def lexical (os : Os) (currentDir : Option PathBuf) (path : PathBuf) : Option PathBuf :=
  let base := if path.isAbsolute os then some path else currentDir.map fun dir => dir.join path
  base.map fun base => settle empty base.components

/-- Only names follow the root. -/
def Clean (path : PathBuf) : Prop :=
  ∀ piece ∈ path.pieces, ∃ name, piece = .normal name

theorem startsWith_iff {path dir : PathBuf} :
    path.startsWith dir = true ↔ dir.components <+: path.components :=
  List.isPrefixOf_iff_prefix

theorem startsWith_refl (path : PathBuf) : path.startsWith path = true :=
  startsWith_iff.mpr (List.prefix_refl _)

theorem startsWith_trans {path middle dir : PathBuf} (inner : path.startsWith middle = true)
    (outer : middle.startsWith dir = true) : path.startsWith dir = true :=
  startsWith_iff.mpr ((startsWith_iff.mp outer).trans (startsWith_iff.mp inner))

theorem isStrictDescendant_iff {path dir : PathBuf} :
    path.isStrictDescendant dir = true ↔
      path.components ≠ dir.components ∧ path.startsWith dir = true := by
  simp [isStrictDescendant]

theorem startsWith_congr {path other dir same : PathBuf}
    (paths : path.components = other.components)
    (dirs : dir.components = same.components) : path.startsWith dir = other.startsWith same := by
  rw [startsWith, startsWith, paths, dirs]

theorem isStrictDescendant_congr {path other dir same : PathBuf}
    (paths : path.components = other.components) (dirs : dir.components = same.components) :
    path.isStrictDescendant dir = other.isStrictDescendant same := by
  rw [isStrictDescendant, isStrictDescendant, startsWith_congr paths dirs, paths, dirs]

/-- What is strictly within a directory has more components. -/
theorem length_lt_of_isStrictDescendant {path dir : PathBuf}
    (strict : path.isStrictDescendant dir = true) :
    dir.components.length < path.components.length := by
  rcases isStrictDescendant_iff.mp strict with ⟨differ, within⟩
  have leading := startsWith_iff.mp within
  rcases Nat.lt_or_ge dir.components.length path.components.length with shorter | longer
  · exact shorter
  · exact absurd (leading.eq_of_length_le longer).symm differ

theorem isStrictDescendant_of_startsWith {path middle dir : PathBuf}
    (inner : path.isStrictDescendant middle = true) (outer : middle.startsWith dir = true) :
    path.isStrictDescendant dir = true := by
  apply isStrictDescendant_iff.mpr
  refine ⟨?_, startsWith_trans (isStrictDescendant_iff.mp inner).2 outer⟩
  intro same
  have shorter := length_lt_of_isStrictDescendant inner
  have longer := (startsWith_iff.mp outer).length_le
  rw [same] at shorter
  omega

/-- A path that a plan can carry is carried as it is. -/
theorem components_display {path : PathBuf} (carried : path.representable ≠ none) :
    path.display.components = path.components := by
  unfold representable at carried
  by_cases same : path.display.components = path.components
  · exact same
  · rw [if_neg same] at carried
    exact absurd rfl carried

theorem settle_of_clean {out path : PathBuf} {components : List Component}
    (cleaned : clean out components = some path) : settle out components = path := by
  induction components generalizing out with
  | nil => exact Option.some.inj cleaned
  | cons component rest ih =>
      cases component with
      | curDir => exact ih cleaned
      | parentDir =>
          rcases Option.bind_eq_some_iff.mp cleaned with ⟨above, popped, cleaned⟩
          simp only [settle, popped, Option.getD_some]
          exact ih cleaned
      | drive name => exact ih cleaned
      | rootDir => exact ih cleaned
      | normal name => exact ih cleaned

theorem clean_of_clean {out path : PathBuf} {components : List Component} (isClean : out.Clean)
    (cleaned : clean out components = some path) : path.Clean := by
  induction components generalizing out with
  | nil =>
      cases cleaned
      exact isClean
  | cons component rest ih =>
      cases component with
      | curDir => exact ih isClean cleaned
      | parentDir =>
          rcases Option.bind_eq_some_iff.mp cleaned with ⟨above, popped, cleaned⟩
          refine ih ?_ cleaned
          unfold pop at popped
          split at popped
          · cases popped
          · cases popped
            intro piece mem
            exact isClean piece (List.mem_of_mem_dropLast mem)
      | drive name =>
          refine ih ?_ cleaned
          intro piece mem
          cases mem
      | rootDir =>
          refine ih ?_ cleaned
          intro piece mem
          cases mem
      | normal name =>
          refine ih ?_ cleaned
          intro piece mem
          rcases List.mem_append.mp mem with before | last
          · exact isClean piece before
          · exact ⟨name, List.mem_singleton.mp last⟩

theorem clean_of_absolutize {os : Os} {currentDir : Option PathBuf} {path abs : PathBuf}
    (made : path.absolutize os currentDir = some abs) : abs.Clean := by
  rcases Option.bind_eq_some_iff.mp made with ⟨base, -, cleaned⟩
  refine clean_of_clean ?_ cleaned
  intro piece mem
  cases mem

/-- A clean path does not lead up. -/
theorem Clean.parentDir_notMem {path : PathBuf} (isClean : path.Clean) :
    .parentDir ∉ path.components := by
  intro mem
  simp only [components, anchor, List.mem_append, List.mem_map, List.mem_filterMap] at mem
  rcases mem with ((⟨name, -, impossible⟩ | root) | current) | ⟨piece, pieceMem, isUp⟩
  · cases impossible
  · split at root
    · simp at root
    · cases root
  · split at current
    · simp at current
    · cases current
  · rcases isClean piece pieceMem with ⟨name, rfl⟩
    cases isUp

theorem settle_of_normal {pieces : List Piece}
    (normal : ∀ piece ∈ pieces, ∃ name, piece = .normal name)
    (out : PathBuf) :
    settle out (pieces.filterMap Piece.component?) =
      { out with pieces := out.pieces ++ pieces } := by
  induction pieces generalizing out with
  | nil => simp [settle]
  | cons piece rest ih =>
      rcases normal piece List.mem_cons_self with ⟨name, rfl⟩
      have next := ih (fun other mem => normal other (List.mem_cons_of_mem _ mem))
        (out.push (.normal name))
      calc settle out ((Piece.normal name :: rest).filterMap Piece.component?)
          = settle (out.push (.normal name)) (rest.filterMap Piece.component?) := rfl
        _ = { out with pieces := out.pieces ++ .normal name :: rest } := by
            rw [next]
            simp [push]

/-- A clean path stays as it is when it is followed from nowhere. -/
theorem settle_components {path : PathBuf} (isClean : path.Clean) :
    settle empty path.components = path := by
  have noDot : path.pieces.head? ≠ some .dot := by
    intro dot
    rcases isClean .dot (List.mem_of_head? dot) with ⟨name, impossible⟩
    cases impossible
  have split : path.components = path.anchor ++ path.pieces.filterMap Piece.component? := by
    simp [components, noDot]
  have followed : settle empty path.components =
      settle { path with pieces := [] } (path.pieces.filterMap Piece.component?) := by
    rcases path with ⟨drive, rooted, pieces⟩
    rw [split]
    cases drive <;> cases rooted <;> rfl
  rw [followed, settle_of_normal isClean, List.nil_append]

/-- A clean path is known by its components. -/
theorem Clean.eq_of_components {path other : PathBuf} (isClean : path.Clean)
    (otherClean : other.Clean) (same : path.components = other.components) : path = other := by
  rw [← settle_components isClean, same, settle_components otherClean]

theorem lexical_of_clean {os : Os} {currentDir : Option PathBuf} {path : PathBuf}
    (isAbs : path.isAbsolute os = true) (isClean : path.Clean) :
    path.lexical os currentDir = some path := by
  rw [lexical, if_pos isAbs, Option.map_some,
    settle_components isClean]

theorem lexical_of_absolutize {os : Os} {currentDir : Option PathBuf} {path abs : PathBuf}
    (made : path.absolutize os currentDir = some abs) : path.lexical os currentDir = some abs := by
  rcases Option.bind_eq_some_iff.mp made with ⟨base, baseEq, cleaned⟩
  rw [lexical]
  rw [baseEq, Option.map_some, settle_of_clean cleaned]

end PathBuf

/-- A path under the root. -/
def absolute (names : List String) : PathBuf where
  drive := none
  rooted := true
  pieces := names.map fun name => .normal (utf8 name)

theorem absolute_clean (names : List String) : (absolute names).Clean := by
  intro piece mem
  rcases List.mem_map.mp mem with ⟨name, -, rfl⟩
  exact ⟨utf8 name, rfl⟩

/-- A path under another one. -/
def relative (names : List String) : PathBuf where
  drive := none
  rooted := false
  pieces := names.map fun name => .normal (utf8 name)

end ClotoCore.Defender
