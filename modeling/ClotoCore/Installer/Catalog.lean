import ClotoCore.Path.Lexical
import ClotoCore.Seal.Release
import ClotoCore.Seal.Tree

/-!
# Catalog entries and install directories

Go's path functions on byte strings, and the rules that turn a catalog entry
into a directory under the servers root.  The catalog is served by the hub and
may be malicious: its texts become paths only by joining.
-/

namespace ClotoCore.Installer

open ClotoCore.Encoding ClotoCore.Lexical
open ClotoCore.Seal (Name RelPath separator)

/-! ## Paths as texts -/

/-- A cleaned path, on Unix. -/
abbrev FilePath := Path Name

/-- What one element of a path means. -/
def segmentOf (element : Bytes) : Segment Name :=
  if element = [] ∨ element = utf8 "." then .here
  else if element = utf8 ".." then .up
  else .name element

/-- The elements of a text. -/
def segmentsOf (text : Bytes) : List (Segment Name) :=
  (text.splitOn separator).map segmentOf

/-- `filepath.Clean` -/
def clean (text : Bytes) : FilePath :=
  (Path.start (text.head? = some separator)).join (segmentsOf text)

/-- `filepath.Join` of a path and a text. -/
def joinText (path : FilePath) (text : Bytes) : FilePath :=
  path.join (segmentsOf text)

/-- `filepath.Base` -/
def base (path : FilePath) : Bytes :=
  match path.base? with
  | some name => name
  | none => if path.rooted then utf8 "/" else if path.ups = 0 then utf8 "." else utf8 ".."

/-- `filepath.Dir`.  Above a path that only climbs there is the same path with one
climb less. -/
def dir (path : FilePath) : FilePath :=
  match path.names with
  | _ :: _ => path.dir
  | [] =>
      { path with
        ups := path.ups - 1
        grounded := fun rooted => by simp [path.grounded rooted] }

/-- `strings.Trim` of slashes. -/
def trimSlashes (text : Bytes) : Bytes :=
  ((text.dropWhile (· == separator)).reverse.dropWhile (· == separator)).reverse

/-- `\` -/
def backslash : UInt8 := 0x5C

theorem segmentsOf_of_unseparated {text : Bytes} (unseparated : separator ∉ text) :
    segmentsOf text = [segmentOf text] := by
  have single : text.splitOn separator = [text] := by
    apply List.splitOnP_eq_singleton
    intro byte mem
    simp only [beq_eq_false_iff_ne, ne_eq]
    rintro rfl
    exact unseparated mem
  rw [segmentsOf, single, List.map_singleton]

/-! ## Catalog entries -/

/-- The source descriptor of an install. -/
structure Source where
  kind : String
  subdir : Option String

/-- A catalog entry, restricted to what an install reads. -/
structure CatalogEntry extends Seal.Entry where
  directory : String
  dependencies : List String
  runtime : String
  binName : Option String
  install : Option Source

/-- The directory of the connector inside the archive of `RawURL`. -/
def CatalogEntry.rawUrlSubdir (entry : CatalogEntry) : Option String :=
  match entry.install with
  | some source => if source.kind = "raw_url" then source.subdir else none
  | none => none

/-- `IsRust`.  What `Normalize` fills in for an empty runtime is not Rust either. -/
def CatalogEntry.isRust (entry : CatalogEntry) : Bool :=
  entry.runtime == "rust"

/-- `NeedsCommon` -/
def CatalogEntry.needsCommon (entry : CatalogEntry) : Bool :=
  !entry.isRust && entry.dependencies.contains "common"

/-- A text behind its last slash or backslash. -/
def lastElement (text : Bytes) : Bytes :=
  (text.reverse.takeWhile fun byte => byte != separator && byte != backslash).reverse

/-- `EffectiveInstallDir` -/
def CatalogEntry.effectiveInstallDir (entry : CatalogEntry) : Bytes :=
  let raw := if entry.directory = "" then utf8 entry.id else utf8 entry.directory
  let last := lastElement (trimSlashes raw)
  if last = [] then raw else last

/-- `isSingleNormalComponent` -/
def isSingleNormalComponent (component : Bytes) : Bool :=
  if component = [] ∨ component = utf8 "." ∨ component = utf8 ".." then false
  else !component.any fun byte => byte == separator || byte == backslash

/-- The refusal of an install directory. -/
def notASingleComponent (id : String) (component : Bytes) : Bytes :=
  utf8 s!"Refusing to install '{id}': install directory '" ++ component
    ++ utf8 "' is not a single path component under mcp-servers (path traversal blocked)"

/-- `ResolveInstallDir` -/
def CatalogEntry.resolveInstallDir (entry : CatalogEntry) (serversDir : Bytes) :
    Except Bytes FilePath :=
  let component := entry.effectiveInstallDir
  if isSingleNormalComponent component then .ok (joinText (clean serversDir) component)
  else .error (notASingleComponent entry.id component)

theorem singleNormal_ordinary {component : Bytes}
    (single : isSingleNormalComponent component = true) :
    segmentOf component = .name component ∧ separator ∉ component := by
  rw [isSingleNormalComponent] at single
  split at single
  · cases single
  · rename_i ordinary
    simp only [not_or] at ordinary
    constructor
    · rw [segmentOf, if_neg (by simp [ordinary.1, ordinary.2.1]), if_neg ordinary.2.2]
    · intro mem
      have found : component.any (fun byte => byte == separator || byte == backslash) = true :=
        List.any_eq_true.mpr ⟨separator, mem, by simp⟩
      simp [found] at single

/-- An install directory that is not refused is one name under the servers root. -/
theorem resolveInstallDir_eq_ok {entry : CatalogEntry} {serversDir : Bytes} {target : FilePath}
    (resolved : entry.resolveInstallDir serversDir = .ok target) :
    isSingleNormalComponent entry.effectiveInstallDir = true ∧
      target = (clean serversDir).descend [entry.effectiveInstallDir] := by
  rw [CatalogEntry.resolveInstallDir] at resolved
  split at resolved
  · rename_i single
    cases resolved
    rcases singleNormal_ordinary single with ⟨ordinary, unseparated⟩
    refine ⟨single, ?_⟩
    rw [joinText, segmentsOf_of_unseparated unseparated, ordinary]
    rfl
  · cases resolved

/-- The install directory lies strictly under the servers root. -/
theorem resolveInstallDir_strictlyWithin {entry : CatalogEntry} {serversDir : Bytes}
    {target : FilePath} (resolved : entry.resolveInstallDir serversDir = .ok target) :
    (clean serversDir).StrictlyWithin target := by
  rw [(resolveInstallDir_eq_ok resolved).2]
  exact Path.strictlyWithin_descend_cons _ _ _

end ClotoCore.Installer
