import ClotoCore.Encoding.Bytes
import ClotoCore.Path.Opening

/-!
# The files of a plugin

A plugin reads and writes files below a directory of its own.  Every path is resolved
before it is used: to what is there, if it leads anywhere, else to its last name in the
directory before it.  What is resolved has to be below the directory, and is then opened.
-/

namespace ClotoCore.Access.FileSandbox

open ClotoCore.Encoding ClotoCore.Lexical ClotoCore.Links

/-- A name in a path, by its characters. -/
abbrev Name := List Char

/-- What a name between separators asks for. -/
def segmentOf (piece : Name) : Segment Name :=
  if piece = [] ∨ piece = ['.'] then .here
  else if piece = ['.', '.'] then .up
  else .name piece

/-- `PathBuf::join`: a path from the root stands for itself. -/
def join (dir : Place Name) (path : String) : List (Segment Name) :=
  let segments := (path.toList.splitOn '/').map segmentOf
  if path.toList.head? = some '/' then segments else wayTo dir ++ segments

/-- The files as the process sees them. -/
structure FileSystem where
  tree : Links.Tree Name
  contents : Place Name → Bytes
  cwd : Place Name
  /-- How far links may lead to links. -/
  limit : Nat

/-- The data of a file, which may be a new one. -/
def FileSystem.put (fs : FileSystem) (place : Place Name) (data : Bytes) : FileSystem :=
  { fs with
    tree := fs.tree.withFile place
    contents := Function.update fs.contents place data }

/-- `canonicalize` -/
def FileSystem.canonicalize (fs : FileSystem) (way : List (Segment Name)) :
    Except Stop (Place Name) :=
  fs.tree.follow fs.limit [] way

/-- Why a path is not used, with the error of the system where there is one. -/
inductive FileError where
  | baseInaccessible (stop : Stop)
  | noParent
  | parentMissing
  | invalidName
  | escapes (path : String)
  | notGranted
  | readFailed (path : String) (stop : Stop)
  | writeFailed (path : String) (stop : Stop)
  deriving DecidableEq

/-- The text of an error, given the ones of the system. -/
def FileError.text (system : Stop → String) : FileError → String
  | .baseInaccessible stop => "Sandbox base dir inaccessible: " ++ system stop
  | .noParent => "Invalid path: no parent directory"
  | .parentMissing => "Parent directory does not exist"
  | .invalidName => "Invalid file name"
  | .escapes path => "Security violation: path '" ++ path ++ "' escapes sandbox directory"
  | .notGranted => "FileWrite permission not granted — operation denied"
  | .readFailed path stop => "FileRead failed for '" ++ path ++ "': " ++ system stop
  | .writeFailed path stop => "FileWrite failed for '" ++ path ++ "': " ++ system stop

/-- `SandboxedFileCapability` -/
structure SandboxedFileCapability where
  baseDir : String
  writeEnabled : Bool

variable (capability : SandboxedFileCapability) (fs : FileSystem) (path : String)

namespace SandboxedFileCapability

/-- The directory, without links. -/
def base : Except FileError (Place Name) :=
  if capability.baseDir.isEmpty then .error (.baseInaccessible .missing)
  else
    match fs.canonicalize (join fs.cwd capability.baseDir) with
    | .error stop => .error (.baseInaccessible stop)
    | .ok base => .ok base

/-- What a path stands for that leads nowhere. -/
def besideParent (candidate : List (Segment Name)) : Except FileError (Place Name) :=
  match (components candidate).getLast? with
  | none => .error .noParent
  | some last =>
      match fs.canonicalize (components candidate).dropLast with
      | .error _ => .error .parentMissing
      | .ok parent =>
          match last with
          | .name name => .ok (parent ++ [name])
          | _ => .error .invalidName

/-- What a path stands for. -/
def located (candidate : List (Segment Name)) : Except FileError (Place Name) :=
  match fs.canonicalize candidate with
  | .ok real => .ok real
  | .error _ => besideParent fs candidate

/-- `resolve` -/
def resolve : Except FileError (Place Name) :=
  match capability.base fs with
  | .error error => .error error
  | .ok base =>
      match located fs (join base path) with
      | .error error => .error error
      | .ok resolved =>
          if base.isPrefixOf resolved then .ok resolved else .error (.escapes path)

/-- The file that is read. -/
def readsFrom : Except FileError (Place Name) :=
  match capability.resolve fs path with
  | .error error => .error error
  | .ok resolved =>
      match fs.tree.openFile fs.limit (wayTo resolved) with
      | .error stop => .error (.readFailed path stop)
      | .ok place => .ok place

/-- `read` -/
def read : Except FileError Bytes :=
  match capability.readsFrom fs path with
  | .error error => .error error
  | .ok place => .ok (fs.contents place)

/-- The file that is written. -/
def writesTo : Except FileError (Place Name) :=
  if !capability.writeEnabled then .error .notGranted
  else
    match capability.resolve fs path with
    | .error error => .error error
    | .ok resolved =>
        match fs.tree.create fs.limit [] (wayTo resolved) with
        | .error stop => .error (.writeFailed path stop)
        | .ok place => .ok place

/-- `write` -/
def write (data : Bytes) : Except FileError FileSystem :=
  match capability.writesTo fs path with
  | .error error => .error error
  | .ok place => .ok (fs.put place data)

end SandboxedFileCapability

/-! ## The sandbox -/

/-- Only files below the directory are touched, and what needs no link is not refused. -/
structure Sandboxed : Prop where
  reads : ∀ base place, capability.base fs = .ok base →
    capability.readsFrom fs path = .ok place → base <+: place
  writes : ∀ base place, capability.base fs = .ok base →
    capability.writesTo fs path = .ok place → base <+: place
  /-- A path to what is there. -/
  existing : ∀ base place, capability.base fs = .ok base →
    fs.tree.follow 0 [] (join base path) = .ok place → base <+: place →
      capability.resolve fs path = .ok place
  /-- A path to a file that can be made. -/
  fresh : ∀ base front parent name, capability.base fs = .ok base →
    components (join base path) = front ++ [.name name] →
    fs.tree.follow 0 [] front = .ok parent → fs.tree.find parent = some .dir →
    fs.tree.find (parent ++ [name]) = none → base <+: parent ++ [name] →
      capability.resolve fs path = .ok (parent ++ [name])

/-- A path leads nowhere, but its last name is a link, and what is opened there is not below
the directory. -/
def SlipsOut : Prop :=
  ∃ base front parent name rooted target final,
    capability.base fs = .ok base ∧
    (∀ real, fs.canonicalize (join base path) ≠ .ok real) ∧
    components (join base path) = front ++ [.name name] ∧
    fs.canonicalize front = .ok parent ∧ base <+: parent ++ [name] ∧
    fs.tree.find (parent ++ [name]) = some (.link rooted target) ∧ ¬base <+: final ∧
    (fs.tree.openFile fs.limit (wayTo (parent ++ [name])) = .ok final ∨
      capability.writeEnabled = true ∧
        fs.tree.create fs.limit [] (wayTo (parent ++ [name])) = .ok final)

variable {capability fs path} {base resolved place : Place Name}

theorem besideParent_eq_ok_iff {candidate : List (Segment Name)} :
    SandboxedFileCapability.besideParent fs candidate = .ok resolved ↔
      ∃ front name parent, components candidate = front ++ [.name name] ∧
        fs.canonicalize front = .ok parent ∧ resolved = parent ++ [name] := by
  unfold SandboxedFileCapability.besideParent
  rcases List.eq_nil_or_concat' (components candidate) with empty | ⟨front, last, split⟩
  · simp [empty]
  · rw [split, List.getLast?_concat, List.dropLast_concat]
    simp only
    constructor
    · intro beside
      split at beside
      · cases beside
      · next parent parentEq =>
        split at beside
        · next name =>
          cases beside
          exact ⟨front, name, parent, rfl, parentEq, rfl⟩
        · cases beside
    · rintro ⟨other, name, parent, same, parentEq, rfl⟩
      have both := List.append_inj' same rfl
      have isName : last = .name name := by simpa using both.2
      rw [both.1, parentEq, isName]

theorem located_eq_ok_iff {candidate : List (Segment Name)} :
    SandboxedFileCapability.located fs candidate = .ok resolved ↔
      fs.canonicalize candidate = .ok resolved ∨
        (∀ real, fs.canonicalize candidate ≠ .ok real) ∧
          SandboxedFileCapability.besideParent fs candidate = .ok resolved := by
  unfold SandboxedFileCapability.located
  split
  · next real canonical => simp [canonical]
  · next stop canonical => simp [canonical]

/-- What a path is resolved to. -/
theorem resolve_eq_ok_iff (baseEq : capability.base fs = .ok base) :
    capability.resolve fs path = .ok resolved ↔ base <+: resolved ∧
      SandboxedFileCapability.located fs (join base path) = .ok resolved := by
  unfold SandboxedFileCapability.resolve
  rw [baseEq]
  simp only
  split
  · next notLocated => simp [notLocated]
  · next other located =>
    rw [located]
    split
    · next below =>
      simp only [Except.ok.injEq]
      constructor
      · rintro rfl
        exact ⟨List.isPrefixOf_iff_prefix.mp below, rfl⟩
      · exact fun both => both.2
    · next below =>
      simp only [reduceCtorEq, Except.ok.injEq, false_iff, not_and]
      rintro inside rfl
      exact below (List.isPrefixOf_iff_prefix.mpr inside)

theorem readsFrom_eq_ok_iff :
    capability.readsFrom fs path = .ok place ↔ ∃ resolved,
      capability.resolve fs path = .ok resolved ∧
        fs.tree.openFile fs.limit (wayTo resolved) = .ok place := by
  unfold SandboxedFileCapability.readsFrom
  split
  · next unresolved => simp [unresolved]
  · next resolved resolvedEq =>
    simp only [resolvedEq, Except.ok.injEq, exists_eq_left']
    split
    · next failed => simp [failed]
    · next other opened => simp [opened]

theorem writesTo_eq_ok_iff :
    capability.writesTo fs path = .ok place ↔ capability.writeEnabled = true ∧ ∃ resolved,
      capability.resolve fs path = .ok resolved ∧
        fs.tree.create fs.limit [] (wayTo resolved) = .ok place := by
  unfold SandboxedFileCapability.writesTo
  cases capability.writeEnabled with
  | false => simp
  | true =>
      simp only [Bool.not_true, Bool.false_eq_true, if_false, true_and]
      split
      · next unresolved => simp [unresolved]
      · next resolved resolvedEq =>
        simp only [resolvedEq, Except.ok.injEq, exists_eq_left']
        split
        · next failed => simp [failed]
        · next other opened => simp [opened]

/-! ## What is touched -/

/-- Where there is no link nothing else is opened. -/
theorem opened_of_found {final : Place Name}
    (found : fs.tree.find resolved = some .dir ∨ fs.tree.find resolved = some .file)
    (opened : fs.tree.openFile fs.limit (wayTo resolved) = .ok final ∨
      fs.tree.create fs.limit [] (wayTo resolved) = .ok final) : final = resolved := by
  rcases opened with opened | created
  · have followed := (Tree.openFile_eq_ok_iff.mp opened).1
    rw [Tree.follow_wayTo found] at followed
    cases followed
    rfl
  · exact Tree.create_wayTo found created

/-- What is opened beside a directory is a new file, or what a link leads to. -/
theorem opened_beside {parent : Place Name} {name : Name} {final : Place Name}
    (isDir : fs.tree.find parent = some .dir)
    (opened : fs.tree.openFile fs.limit (wayTo (parent ++ [name])) = .ok final ∨
      fs.tree.create fs.limit [] (wayTo (parent ++ [name])) = .ok final) :
    final = parent ++ [name] ∨
      ∃ rooted target, fs.tree.find (parent ++ [name]) = some (.link rooted target) := by
  cases found : fs.tree.find (parent ++ [name]) with
  | none =>
      left
      rcases opened with opened | created
      · have followed := (Tree.openFile_eq_ok_iff.mp opened).1
        rw [Tree.follow_wayTo_concat isDir] at followed
        exact absurd found (Tree.find_ne_none_of_follow followed)
      · exact Tree.create_wayTo_concat isDir (by simp [found]) created
  | some node =>
      cases node with
      | dir => exact Or.inl (opened_of_found (Or.inl found) opened)
      | file => exact Or.inl (opened_of_found (Or.inr found) opened)
      | link rooted target => exact Or.inr ⟨rooted, target, rfl⟩

/-- What is below nothing else than a directory is in none. -/
theorem isDir_of_opened {parent : Place Name} {name : Name} {final : Place Name}
    (found : fs.tree.find parent = some .dir ∨ fs.tree.find parent = some .file)
    (opened : fs.tree.openFile fs.limit (wayTo (parent ++ [name])) = .ok final ∨
      fs.tree.create fs.limit [] (wayTo (parent ++ [name])) = .ok final) :
    fs.tree.find parent = some .dir := by
  rcases found with isDir | isFile
  · exact isDir
  · exfalso
    rcases opened with opened | created
    · have followed := (Tree.openFile_eq_ok_iff.mp opened).1
      rw [Tree.follow_of_trace_error (Tree.trace_below_file false isFile name)] at followed
      cases followed
    · rw [Tree.create, Tree.trace_below_file true isFile name] at created
      cases created

theorem below_of_opened (safe : ¬SlipsOut capability fs path)
    (baseEq : capability.base fs = .ok base) {final : Place Name}
    (resolvedEq : capability.resolve fs path = .ok resolved)
    (opened : fs.tree.openFile fs.limit (wayTo resolved) = .ok final ∨
      capability.writeEnabled = true ∧ fs.tree.create fs.limit [] (wayTo resolved) = .ok final) :
    base <+: final := by
  rcases (resolve_eq_ok_iff baseEq).mp resolvedEq with ⟨below, located⟩
  have either : fs.tree.openFile fs.limit (wayTo resolved) = .ok final ∨
      fs.tree.create fs.limit [] (wayTo resolved) = .ok final := opened.imp id And.right
  rcases located_eq_ok_iff.mp located with real | ⟨nowhere, beside⟩
  · rw [opened_of_found (Tree.find_of_follow (Tree.find_root _) real) either]
    exact below
  · rcases besideParent_eq_ok_iff.mp beside with ⟨front, name, parent, split, parentEq, rfl⟩
    have isDir := isDir_of_opened (Tree.find_of_follow (Tree.find_root _) parentEq) either
    rcases opened_beside isDir either with rfl | ⟨rooted, target, isLink⟩
    · exact below
    · by_contra outside
      exact safe ⟨base, front, parent, name, rooted, target, final, baseEq, nowhere, split,
        parentEq, below, isLink, outside, opened⟩

/-- A plugin's files stay below its directory, unless a path that leads nowhere ends in the
name of a link which what is opened then follows. -/
theorem sandboxed_iff : Sandboxed capability fs path ↔ ¬SlipsOut capability fs path := by
  constructor
  · rintro sandboxed ⟨base, front, parent, name, rooted, target, final, baseEq, nowhere, split,
      parentEq, below, -, outside, opened⟩
    have beside : SandboxedFileCapability.besideParent fs (join base path)
        = .ok (parent ++ [name]) :=
      besideParent_eq_ok_iff.mpr ⟨front, name, parent, split, parentEq, rfl⟩
    have resolvedEq := (resolve_eq_ok_iff baseEq).mpr
      ⟨below, located_eq_ok_iff.mpr (Or.inr ⟨nowhere, beside⟩)⟩
    rcases opened with opened | ⟨enabled, created⟩
    · exact outside (sandboxed.reads base final baseEq
        (readsFrom_eq_ok_iff.mpr ⟨_, resolvedEq, opened⟩))
    · exact outside (sandboxed.writes base final baseEq
        (writesTo_eq_ok_iff.mpr ⟨enabled, _, resolvedEq, created⟩))
  · intro safe
    constructor
    · intro base place baseEq reads
      rcases readsFrom_eq_ok_iff.mp reads with ⟨resolved, resolvedEq, opened⟩
      exact below_of_opened safe baseEq resolvedEq (Or.inl opened)
    · intro base place baseEq writes
      rcases writesTo_eq_ok_iff.mp writes with ⟨enabled, resolved, resolvedEq, created⟩
      exact below_of_opened safe baseEq resolvedEq (Or.inr ⟨enabled, created⟩)
    · intro base place baseEq followed below
      exact (resolve_eq_ok_iff baseEq).mpr
        ⟨below, located_eq_ok_iff.mpr (Or.inl (Tree.follow_of_linkless followed))⟩
    · intro base front parent name baseEq split followed isDir free below
      have parentEq : fs.canonicalize front = .ok parent := Tree.follow_of_linkless followed
      refine (resolve_eq_ok_iff baseEq).mpr ⟨below, located_eq_ok_iff.mpr (Or.inr ⟨?_,
        besideParent_eq_ok_iff.mpr ⟨front, name, parent, split, parentEq, rfl⟩⟩)⟩
      intro real canonical
      have shorter := Tree.follow_components canonical
      obtain ⟨left, led⟩ := Tree.exists_trace_of_follow parentEq
      rw [split, Tree.follow_concat (Tree.find_root _), led, Except.bind,
        Tree.goOn_of_dir isDir] at shorter
      exact Tree.find_ne_none_of_follow shorter free

/-! ## A link to a file -/

/-- A directory with a link to a file outside and one to a file that is not there. -/
def linkedTree : Links.Tree Name where
  nodes := [(["base".toList], .dir), (["secret".toList], .file),
    (["base".toList, "link".toList], .link true [.name "secret".toList]),
    (["base".toList, "dangling".toList], .link true [.name "new".toList])]
  named := by decide
  distinct := by decide +kernel
  grounded := by decide +kernel

/-- The file system with these links, every file of which holds one byte. -/
def linkedSystem : FileSystem where
  tree := linkedTree
  contents _ := [7]
  cwd := []
  limit := 40

/-- With a slash behind it a link to a file is not followed when the path is resolved, but
when it is read; a link to what is missing is followed when it is written. -/
theorem link_slips_out :
    (⟨"/base", false⟩ : SandboxedFileCapability).readsFrom linkedSystem "link/"
        = .ok ["secret".toList] ∧
      (⟨"/base", true⟩ : SandboxedFileCapability).writesTo linkedSystem "dangling"
        = .ok ["new".toList] ∧
      ¬Sandboxed ⟨"/base", false⟩ linkedSystem "link/" ∧
      ¬Sandboxed ⟨"/base", true⟩ linkedSystem "dangling" := by
  have reads : (⟨"/base", false⟩ : SandboxedFileCapability).readsFrom linkedSystem "link/"
      = .ok ["secret".toList] := by decide +kernel
  have writes : (⟨"/base", true⟩ : SandboxedFileCapability).writesTo linkedSystem "dangling"
      = .ok ["new".toList] := by decide +kernel
  have base : ∀ enabled, (⟨"/base", enabled⟩ : SandboxedFileCapability).base linkedSystem
      = .ok ["base".toList] := by decide +kernel
  refine ⟨reads, writes, fun sandboxed => ?_, fun sandboxed => ?_⟩
  · exact absurd (sandboxed.reads _ _ (base false) reads) (by decide +kernel)
  · exact absurd (sandboxed.writes _ _ (base true) writes) (by decide +kernel)

end ClotoCore.Access.FileSandbox
