import ClotoCore.Seal.Tree
import Mathlib.Data.List.Infix

/-!
# Changing a file system

One object of a file system is replaced at a time.  What a replacement does to
other places depends only on how their paths lie to the replaced one: nothing
changes beside it, and below it is what the new object holds there.
-/

namespace ClotoCore.Installer

open ClotoCore.Encoding ClotoCore.Seal

/-! ## Entries of one directory -/

/-- Replace, add or remove an entry. -/
def setEntry (name : Name) (object : Option Node) (entries : Entries) : Entries :=
  (object.toList.map fun node => (name, node)) ++ entries.filter fun entry => entry.1 != name

theorem lookup_filter_self (name : Name) (entries : Entries) :
    (entries.filter fun entry => entry.1 != name).lookup name = none := by
  apply List.lookup_eq_none_iff.mpr
  intro entry mem
  have differ : entry.1 ≠ name := by simpa using (List.mem_filter.mp mem).2
  simpa using Ne.symm differ

theorem lookup_filter_ne {name other : Name} (differ : other ≠ name) (entries : Entries) :
    (entries.filter fun entry => entry.1 != name).lookup other = entries.lookup other := by
  induction entries with
  | nil => rfl
  | cons entry rest ih =>
      rcases entry with ⟨first, node⟩
      by_cases same : first = name
      · have unequal : (other == first) = false := by simpa [same] using differ
        rw [List.filter_cons_of_neg (by simp [same]), List.lookup_cons, unequal]
        exact ih
      · rw [List.filter_cons_of_pos (by simp [same]), List.lookup_cons, List.lookup_cons, ih]

theorem lookup_setEntry_self (name : Name) (object : Option Node) (entries : Entries) :
    (setEntry name object entries).lookup name = object := by
  cases object with
  | none => exact lookup_filter_self name entries
  | some node => simp [setEntry]

theorem lookup_setEntry_ne {name other : Name} (differ : other ≠ name) (object : Option Node)
    (entries : Entries) : (setEntry name object entries).lookup other = entries.lookup other := by
  cases object with
  | none => exact lookup_filter_ne differ entries
  | some node =>
      have unequal : (other == name) = false := by simpa using differ
      rw [setEntry, Option.toList_some, List.map_singleton, List.singleton_append, List.lookup_cons,
        unequal]
      exact lookup_filter_ne differ entries

theorem wellFormed_filter {entries : Entries} (wellFormed : WellFormed entries)
    (kept : Name × Node → Bool) : WellFormed (entries.filter kept) := by
  induction entries with
  | nil => exact trivial
  | cons entry rest ih =>
      rcases entry with ⟨name, node⟩
      rcases wellFormed with ⟨isName, fresh, nodeWellFormed, restWellFormed⟩
      rw [List.filter_cons]
      split
      · have freshKept : name ∉ (rest.filter kept).map Prod.fst := fun mem =>
          fresh ((List.filter_sublist.map Prod.fst).subset mem)
        exact ⟨isName, freshKept, nodeWellFormed, ih restWellFormed⟩
      · exact ih restWellFormed

/-- A directory stays well formed when what is put into it is. -/
theorem wellFormed_setEntry {name : Name} {object : Option Node} {entries : Entries}
    (isName : IsName name) (objectWellFormed : ∀ node ∈ object, node.WellFormed)
    (wellFormed : WellFormed entries) : WellFormed (setEntry name object entries) := by
  cases object with
  | none => exact wellFormed_filter wellFormed _
  | some node =>
      have fresh : name ∉ (entries.filter fun entry => entry.1 != name).map Prod.fst := by
        simp
      exact ⟨isName, fresh, objectWellFormed node rfl, wellFormed_filter wellFormed _⟩

/-! ## Objects at a path -/

/-- Replace what is at a path, where its directory exists. -/
def setAt (object : Option Node) : RelPath → Entries → Entries
  | [], entries => entries
  | [name], entries => setEntry name object entries
  | name :: next :: rest, entries =>
      match entries.lookup name with
      | some (.directory inner) =>
          setEntry name (some (.directory (setAt object (next :: rest) inner))) entries
      | _ => entries

theorem wellFormed_setAt {object : Option Node} {path : RelPath} {entries : Entries}
    (areNames : ∀ name ∈ path, IsName name) (objectWellFormed : ∀ node ∈ object, node.WellFormed)
    (wellFormed : WellFormed entries) : WellFormed (setAt object path entries) := by
  induction path generalizing entries with
  | nil => exact wellFormed
  | cons name rest ih =>
      cases rest with
      | nil => exact wellFormed_setEntry (areNames name (by simp)) objectWellFormed wellFormed
      | cons next rest =>
          rw [setAt]
          split
          · rename_i inner found
            have innerWellFormed : WellFormed inner :=
              (WellFormed.of_mem wellFormed (WellFormed.mem_of_lookup_eq_some found)).2
            apply wellFormed_setEntry (areNames name (by simp)) _ wellFormed
            intro node mem
            cases mem
            exact ih (fun name mem => areNames name (List.mem_cons_of_mem _ mem)) innerWellFormed
          · exact wellFormed

/-- Whether a directory is at the path. -/
def Node.isDirectory : Node → Bool
  | .directory _ => true
  | .leaf _ => false

/-- Below the replaced path is what the new object holds there. -/
theorem at_setAt_append {object : Option Node} {path rest : RelPath} {entries : Entries}
    (nonempty : path ≠ [])
    (parent : ((Node.directory entries).at path.dropLast).any Node.isDirectory = true) :
    (Node.directory (setAt object path entries)).at (path ++ rest)
      = object.bind fun node => node.at rest := by
  induction path generalizing entries with
  | nil => exact absurd rfl nonempty
  | cons name more ih =>
      cases more with
      | nil =>
          rw [setAt, List.singleton_append, Node.at_directory_cons, lookup_setEntry_self]
      | cons next more =>
          rw [List.dropLast_cons_cons, Node.at_directory_cons] at parent
          rw [setAt]
          cases found : entries.lookup name with
          | none => simp [found] at parent
          | some entry =>
              rw [found] at parent
              cases entry with
              | leaf leaf => cases more <;> simp [Node.at, Node.isDirectory] at parent
              | directory inner =>
                  simp only [List.cons_append, Node.at_directory_cons, lookup_setEntry_self,
                    Option.bind_some]
                  exact ih (by simp) parent

/-- Above the replaced path a directory stays a directory. -/
theorem at_setAt_above {object : Option Node} {path rest : RelPath} {entries inner : Entries}
    (below : rest ≠ []) (found : (Node.directory entries).at path = some (.directory inner)) :
    (Node.directory (setAt object (path ++ rest) entries)).at path
      = some (.directory (setAt object rest inner)) := by
  induction path generalizing entries with
  | nil =>
      cases found
      rfl
  | cons name more ih =>
      rw [Node.at_directory_cons] at found
      rcases Option.bind_eq_some_iff.mp found with ⟨entry, entryFound, moreFound⟩
      cases entry with
      | leaf leaf => cases more <;> simp [Node.at] at moreFound
      | directory entryInner =>
          have split : ∃ next others, more ++ rest = next :: others :=
            List.exists_cons_of_ne_nil (by simp [below])
          rcases split with ⟨next, others, joined⟩
          have stepped := ih moreFound
          simp only [List.cons_append, joined, setAt, entryFound, Node.at_directory_cons,
            lookup_setEntry_self, Option.bind_some]
          rw [← joined]
          exact stepped

/-- Beside the replaced path nothing changes. -/
theorem at_setAt_of_disjoint {object : Option Node} {path other : RelPath} {entries : Entries}
    (notBelow : ¬path <+: other) (notAbove : ¬other <+: path) :
    (Node.directory (setAt object path entries)).at other = (Node.directory entries).at other := by
  induction path generalizing other entries with
  | nil => exact absurd List.nil_prefix notBelow
  | cons name more ih =>
      cases other with
      | nil => exact absurd List.nil_prefix notAbove
      | cons first others =>
          cases more with
          | nil =>
              have differ : first ≠ name := by
                rintro rfl
                exact notBelow ⟨others, rfl⟩
              rw [setAt, Node.at_directory_cons, Node.at_directory_cons, lookup_setEntry_ne differ]
          | cons next more =>
              rw [setAt]
              cases found : entries.lookup name with
              | none => rfl
              | some entry =>
                  cases entry with
                  | leaf leaf => rfl
                  | directory inner =>
                      simp only [Node.at_directory_cons]
                      by_cases same : first = name
                      · rw [same, lookup_setEntry_self, found, Option.bind_some, Option.bind_some]
                        apply ih
                        · exact fun below => notBelow (same ▸ List.cons_prefix_cons.mpr ⟨rfl, below⟩)
                        · exact fun above => notAbove (same ▸ List.cons_prefix_cons.mpr ⟨rfl, above⟩)
                      · rw [lookup_setEntry_ne same]

/-! ## File systems -/

/-- What a file system holds under its root. -/
abbrev Disk := InstallTree

/-- An object that can be put into a file system. -/
@[ext]
structure Object where
  node : Node
  wellFormed : node.WellFormed

/-- An empty directory. -/
def Object.emptyDirectory : Object where
  node := .directory []
  wellFormed := trivial

/-- A regular file. -/
def Object.file (content : Bytes) : Object where
  node := .leaf (.file content)
  wellFormed := trivial

/-- A directory with what it holds. -/
def Object.ofTree (tree : InstallTree) : Object where
  node := tree.root
  wellFormed := tree.wellFormed

/-- Every name of the path is one the system admits. -/
def Admissible (path : RelPath) : Prop :=
  ∀ name ∈ path, IsName name

instance (path : RelPath) : Decidable (Admissible path) :=
  inferInstanceAs (Decidable (∀ name ∈ path, IsName name))

/-- The object at a path. -/
def Disk.get (disk : Disk) (path : RelPath) : Option Node :=
  disk.root.at path

/-- A directory is at the path. -/
def Disk.HasDirectory (disk : Disk) (path : RelPath) : Prop :=
  (disk.get path).any Node.isDirectory = true

instance (disk : Disk) (path : RelPath) : Decidable (disk.HasDirectory path) :=
  inferInstanceAs (Decidable (_ = _))

/-- Something can stand at the path: it is named in a directory that exists. -/
structure Disk.Places (disk : Disk) (path : RelPath) : Prop where
  admissible : Admissible path
  nonempty : path ≠ []
  parent : disk.HasDirectory path.dropLast

instance (disk : Disk) (path : RelPath) : Decidable (disk.Places path) :=
  decidable_of_iff (Admissible path ∧ path ≠ [] ∧ disk.HasDirectory path.dropLast)
    ⟨fun ⟨admissible, nonempty, parent⟩ => ⟨admissible, nonempty, parent⟩,
      fun ⟨admissible, nonempty, parent⟩ => ⟨admissible, nonempty, parent⟩⟩

/-- Replace what is at a path. -/
def Disk.set (disk : Disk) (path : RelPath) (object : Option Object) : Disk :=
  if places : disk.Places path then
    { entries := setAt (object.map Object.node) path disk.entries
      wellFormed := by
        apply wellFormed_setAt places.admissible _ disk.wellFormed
        intro node mem
        rcases Option.map_eq_some_iff.mp mem with ⟨given, _, rfl⟩
        exact given.wellFormed }
  else disk

theorem Node.WellFormed.at {node found : Node} {path : RelPath} (wellFormed : node.WellFormed)
    (foundAt : node.at path = some found) : found.WellFormed := by
  induction path generalizing node with
  | nil =>
      cases foundAt
      exact wellFormed
  | cons name rest ih =>
      cases node with
      | leaf leaf => simp [Node.at] at foundAt
      | directory entries =>
          rw [Node.at_directory_cons, Option.bind_eq_some_iff] at foundAt
          rcases foundAt with ⟨entry, entryFound, restAt⟩
          exact ih (WellFormed.of_mem wellFormed (WellFormed.mem_of_lookup_eq_some entryFound)).2
            restAt

theorem Disk.wellFormed_root (disk : Disk) : disk.root.WellFormed :=
  disk.wellFormed

/-- The object at a path, to be put elsewhere. -/
def Disk.object (disk : Disk) (path : RelPath) : Option Object :=
  match found : disk.get path with
  | some node => some ⟨node, Node.WellFormed.at disk.wellFormed_root found⟩
  | none => none

theorem Disk.map_node_object (disk : Disk) (path : RelPath) :
    (disk.object path).map Object.node = disk.get path := by
  rw [Disk.object]
  split
  · rename_i node found
    exact found.symm
  · rename_i absent
    exact absent.symm

/-- The path neither contains the other nor lies in it. -/
def Apart (path other : RelPath) : Prop :=
  ¬path <+: other ∧ ¬other <+: path

instance (path other : RelPath) : Decidable (Apart path other) :=
  inferInstanceAs (Decidable (_ ∧ _))

theorem Apart.symm {path other : RelPath} (apart : Apart path other) : Apart other path :=
  ⟨apart.2, apart.1⟩

/-- Places apart from a path are apart from what lies below it. -/
theorem Apart.below {path other below : RelPath} (apart : Apart path other)
    (under : path <+: below) : Apart below other := by
  constructor
  · exact fun contains => apart.1 (under.trans contains)
  · intro inside
    rcases List.prefix_or_prefix_of_prefix inside under with shorter | longer
    · exact apart.2 shorter
    · exact apart.1 longer

section Frames

variable {disk : Disk} {path other : RelPath}

theorem Disk.get_append (disk : Disk) (path rest : RelPath) :
    disk.get (path ++ rest) = (disk.get path).bind fun node => node.at rest := by
  rw [Disk.get, Disk.get]
  generalize disk.root = node
  induction path generalizing node with
  | nil => rfl
  | cons name more ih =>
      cases node with
      | leaf leaf => rfl
      | directory entries =>
          simp only [List.cons_append, Node.at_directory_cons, Option.bind_assoc, ih]

/-- Where something stands, something can stand. -/
theorem Disk.places_of_get {node : Node} (found : disk.get path = some node)
    (nonempty : path ≠ []) :
    disk.Places path where
  admissible := isName_of_at disk.wellFormed_root found
  nonempty := nonempty
  parent := by
    have whole : path.dropLast ++ [path.getLast nonempty] = path :=
      List.dropLast_append_getLast nonempty
    rw [← whole, Disk.get_append] at found
    rcases Option.bind_eq_some_iff.mp found with ⟨parent, parentFound, childFound⟩
    rw [Disk.HasDirectory, parentFound]
    cases parent with
    | leaf leaf => simp [Node.at] at childFound
    | directory entries => rfl

/-- Beside the path nothing changes. -/
theorem Disk.get_set_of_apart (object : Option Object) (apart : Apart path other) :
    (disk.set path object).get other = disk.get other := by
  rw [Disk.set]
  split
  · exact at_setAt_of_disjoint apart.1 apart.2
  · rfl

/-- At and below the path is the new object. -/
theorem Disk.get_set_append (object : Option Object) (rest : RelPath) (places : disk.Places path) :
    (disk.set path object).get (path ++ rest)
      = (object.map Object.node).bind fun node => node.at rest := by
  rw [Disk.set, dif_pos places]
  exact at_setAt_append places.nonempty places.parent

theorem Disk.get_set_self (object : Option Object) (places : disk.Places path) :
    (disk.set path object).get path = object.map Object.node := by
  have whole := Disk.get_set_append object [] places
  rw [List.append_nil] at whole
  rw [whole]
  cases object <;> rfl

theorem Disk.hasDirectory_iff :
    disk.HasDirectory path ↔ ∃ entries, disk.get path = some (.directory entries) := by
  rw [Disk.HasDirectory]
  cases disk.get path with
  | none => simp
  | some node => cases node <;> simp [Node.isDirectory]

/-- Putting something where no directory is leaves every directory one. -/
theorem Disk.HasDirectory.set (object : Option Object) (notThere : ¬disk.HasDirectory path)
    (there : disk.HasDirectory other) : (disk.set path object).HasDirectory other := by
  by_cases below : path <+: other
  · -- nothing lies below what is no directory
    rcases below with ⟨rest, rfl⟩
    rw [Disk.HasDirectory, Disk.get_append] at there
    rw [Disk.HasDirectory] at notThere
    cases found : disk.get path with
    | none => simp [found] at there
    | some node =>
        cases node with
        | leaf leaf => cases rest <;> simp [found, Node.at, Node.isDirectory] at there
        | directory entries => simp [found, Node.isDirectory] at notThere
  · by_cases above : other <+: path
    · rcases above with ⟨rest, rfl⟩
      have restNonempty : rest ≠ [] := by
        rintro rfl
        exact below (by simp)
      rcases Disk.hasDirectory_iff.mp there with ⟨entries, found⟩
      rw [Disk.set]
      split
      · exact Disk.hasDirectory_iff.mpr ⟨_, at_setAt_above restNonempty found⟩
      · exact there
    · rw [Disk.HasDirectory, Disk.get_set_of_apart object ⟨below, above⟩]
      exact there

/-- A new directory is empty, so nothing appears below it. -/
theorem Disk.get_set_emptyDirectory (absent : disk.get path = none) (notAt : ¬other <+: path) :
    (disk.set path (some .emptyDirectory)).get other = disk.get other := by
  by_cases below : path <+: other
  · rcases below with ⟨rest, rfl⟩
    have restNonempty : rest ≠ [] := by
      rintro rfl
      exact notAt (by simp)
    by_cases places : disk.Places path
    · rw [Disk.get_set_append _ _ places, Disk.get_append, absent, Option.bind_none]
      rcases List.exists_cons_of_ne_nil restNonempty with ⟨name, more, rfl⟩
      rfl
    · rw [Disk.set, dif_neg places]
  · exact Disk.get_set_of_apart _ ⟨below, notAt⟩

/-- What leads to a directory is one. -/
theorem Disk.HasDirectory.of_prefix (above : path <+: other) (there : disk.HasDirectory other) :
    disk.HasDirectory path := by
  rcases above with ⟨rest, rfl⟩
  rw [Disk.HasDirectory, Disk.get_append] at there
  rw [Disk.HasDirectory]
  cases found : disk.get path with
  | none => simp [found] at there
  | some node =>
      cases node with
      | leaf leaf => cases rest <;> simp [found, Node.at, Node.isDirectory] at there
      | directory entries => rfl

end Frames

/-! ## Leaves -/

/-- What the object is, unless it is a directory. -/
def leafOf : Node → Option Leaf
  | .leaf leaf => some leaf
  | .directory _ => none

/-- The leaf at a path. -/
def Disk.leafAt (disk : Disk) (path : RelPath) : Option Leaf :=
  (disk.get path).bind leafOf

section Leaves

variable {disk : Disk} {path other : RelPath}

theorem Disk.leafAt_of_hasDirectory (there : disk.HasDirectory path) : disk.leafAt path = none := by
  rcases Disk.hasDirectory_iff.mp there with ⟨entries, found⟩
  rw [Disk.leafAt, found]
  rfl

/-- Nothing lies below what is no directory. -/
theorem Disk.get_below (notThere : ¬disk.HasDirectory path) {rest : RelPath} (below : rest ≠ []) :
    disk.get (path ++ rest) = none := by
  rcases List.exists_cons_of_ne_nil below with ⟨name, more, rfl⟩
  rw [Disk.get_append]
  rw [Disk.HasDirectory] at notThere
  cases found : disk.get path with
  | none => rfl
  | some node =>
      cases node with
      | leaf leaf => rfl
      | directory entries => simp [found, Node.isDirectory] at notThere

/-- An object with nothing below it, put where no directory is, changes no leaf but
the one at its path. -/
theorem Disk.leafAt_set {object : Object}
    (bare : ∀ name rest, object.node.at (name :: rest) = none) (places : disk.Places path)
    (notThere : ¬disk.HasDirectory path) :
    (disk.set path (some object)).leafAt
      = Function.update disk.leafAt path (leafOf object.node) := by
  funext other
  by_cases below : path <+: other
  · rcases below with ⟨rest, rfl⟩
    cases rest with
    | nil =>
        rw [List.append_nil, Function.update_self, Disk.leafAt, Disk.get_set_self _ places]
        rfl
    | cons name rest =>
        have differ : path ++ name :: rest ≠ path := by simp
        rw [Function.update_of_ne differ, Disk.leafAt, Disk.get_set_append _ _ places, Disk.leafAt,
          Disk.get_below notThere (by simp)]
        simp [bare]
  · have differ : other ≠ path := by
      rintro rfl
      exact below List.prefix_rfl
    rw [Function.update_of_ne differ]
    by_cases above : other <+: path
    · -- above the path are directories, before and after
      have shorter : other <+: path.dropLast := by
        rcases above with ⟨rest, rfl⟩
        have nonempty : rest ≠ [] := by
          rintro rfl
          exact differ (by simp)
        rw [List.dropLast_append_of_ne_nil nonempty]
        exact List.prefix_append _ _
      have there := places.parent.of_prefix shorter
      rw [Disk.leafAt_of_hasDirectory there,
        Disk.leafAt_of_hasDirectory (there.set (some object) notThere)]
    · rw [Disk.leafAt, Disk.get_set_of_apart _ ⟨below, above⟩, Disk.leafAt]

end Leaves

end ClotoCore.Installer
