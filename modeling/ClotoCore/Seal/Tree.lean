import ClotoCore.Encoding.Bytes
import Mathlib.Data.List.Perm.Basic

/-!
# Install trees and their walk

An install tree is what a Unix file system holds under one directory.  Both
seal implementations walk it with a stack of directories, ask for every entry
whether its path is excluded, and collect the paths of the regular files up to
a ceiling.  The walk is stated once, over the exclusion rule and the order in
which a directory is listed; its result is the files that structural recursion
finds, in some order.
-/

namespace ClotoCore.Seal

open ClotoCore.Encoding

/-- The name of a directory entry. -/
abbrev Name := Bytes

/-- A path relative to the root of the tree. -/
abbrev RelPath := List Name

/-- What is not a directory. -/
inductive Leaf where
  | file (content : Bytes)
  | symlink (target : Bytes)
  | special
  deriving DecidableEq

/-- An object of the file system. -/
inductive Node where
  | leaf (leaf : Leaf)
  | directory (entries : List (Name × Node))

/-- The entries of a directory. -/
abbrev Entries := List (Name × Node)

/-- `/` -/
def separator : UInt8 := 0x2F

/-- The names a Unix file system admits. -/
structure IsName (name : Name) : Prop where
  nonempty : name ≠ []
  unseparated : separator ∉ name
  terminated : 0 ∉ name
  notSelf : name ≠ utf8 "."
  notParent : name ≠ utf8 ".."

instance (name : Name) : Decidable (IsName name) :=
  decidable_of_iff (name ≠ [] ∧ separator ∉ name ∧ 0 ∉ name ∧ name ≠ utf8 "." ∧ name ≠ utf8 "..")
    ⟨fun ⟨a, b, c, d, e⟩ => ⟨a, b, c, d, e⟩, fun ⟨a, b, c, d, e⟩ => ⟨a, b, c, d, e⟩⟩

mutual

/-- Every directory in the object is well formed. -/
def Node.WellFormed : Node → Prop
  | .leaf _ => True
  | .directory entries => WellFormed entries

/-- The names are admissible and no directory has a name twice. -/
def WellFormed : Entries → Prop
  | [] => True
  | (name, node) :: rest =>
      IsName name ∧ name ∉ rest.map Prod.fst ∧ node.WellFormed ∧ WellFormed rest

end

theorem Node.wellFormed_leaf (leaf : Leaf) : (Node.leaf leaf).WellFormed :=
  trivial

/-- The tree under an install directory. -/
structure InstallTree where
  entries : Entries
  wellFormed : WellFormed entries

/-! ## Induction over a tree -/

/-- A statement about directories, read at an object. -/
def Node.Satisfies (motive : Entries → Prop) : Node → Prop
  | .leaf _ => True
  | .directory entries => motive entries

mutual

theorem Node.satisfies {motive : Entries → Prop} (nil : motive [])
    (cons : ∀ name node rest, node.Satisfies motive → motive rest → motive ((name, node) :: rest)) :
    ∀ node : Node, node.Satisfies motive
  | .leaf _ => trivial
  | .directory entries => Entries.induction nil cons entries

/-- Induction over the directories of a tree. -/
theorem Entries.induction {motive : Entries → Prop} (nil : motive [])
    (cons : ∀ name node rest, node.Satisfies motive → motive rest → motive ((name, node) :: rest)) :
    ∀ entries : Entries, motive entries
  | [] => nil
  | (name, node) :: rest =>
      cons name node rest (Node.satisfies nil cons node) (Entries.induction nil cons rest)

end

theorem Entries.inductionOnMembers {motive : Entries → Prop}
    (step : ∀ entries, (∀ name node, (name, node) ∈ entries → node.Satisfies motive) →
      motive entries) (entries : Entries) : motive entries := by
  apply step
  induction entries using Entries.induction with
  | nil => simp
  | cons headName headNode rest headSatisfies restSatisfies =>
      intro name node mem
      rcases List.mem_cons.mp mem with same | there
      · cases same
        cases headNode with
        | leaf leaf => trivial
        | directory entries => exact step entries headSatisfies
      · exact restSatisfies name node there

/-! ## Looking a path up -/

/-- The object at a path. -/
def Node.at (node : Node) : RelPath → Option Node
  | [] => some node
  | name :: rest =>
      match node with
      | .leaf _ => none
      | .directory entries => (entries.lookup name).bind fun entry => entry.at rest

/-- The root directory. -/
def InstallTree.root (tree : InstallTree) : Node :=
  .directory tree.entries

/-- The tree holds a leaf at a path. -/
def InstallTree.Holds (tree : InstallTree) (path : RelPath) (leaf : Leaf) : Prop :=
  tree.root.at path = some (.leaf leaf)

theorem WellFormed.of_mem {entries : Entries} (wellFormed : WellFormed entries) {name : Name}
    {node : Node} (mem : (name, node) ∈ entries) : IsName name ∧ node.WellFormed := by
  induction entries with
  | nil => simp at mem
  | cons entry rest ih =>
      rcases entry with ⟨headName, headNode⟩
      rcases wellFormed with ⟨isName, _, headWellFormed, restWellFormed⟩
      rcases List.mem_cons.mp mem with same | there
      · cases same
        exact ⟨isName, headWellFormed⟩
      · exact ih restWellFormed there

/-- Looking up a name of a well-formed directory finds its only entry. -/
theorem WellFormed.lookup_eq_some {entries : Entries} (wellFormed : WellFormed entries)
    {name : Name} {node : Node} (mem : (name, node) ∈ entries) :
    entries.lookup name = some node := by
  induction entries with
  | nil => simp at mem
  | cons entry rest ih =>
      rcases entry with ⟨headName, headNode⟩
      rcases wellFormed with ⟨_, fresh, _, restWellFormed⟩
      rcases List.mem_cons.mp mem with same | there
      · cases same
        simp
      · have different : name ≠ headName := by
          rintro rfl
          exact fresh (List.mem_map_of_mem there)
        have unequal : (name == headName) = false := by simpa using different
        rw [List.lookup_cons, unequal]
        exact ih restWellFormed there

theorem WellFormed.mem_of_lookup_eq_some {entries : Entries} {name : Name} {node : Node}
    (found : entries.lookup name = some node) : (name, node) ∈ entries := by
  rcases List.lookup_eq_some_iff.mp found with ⟨before, after, split, -⟩
  rw [split]
  exact List.mem_append_right before List.mem_cons_self

theorem Node.at_directory_cons {entries : Entries} {name : Name} {rest : RelPath} :
    (Node.directory entries).at (name :: rest)
      = (entries.lookup name).bind fun entry => entry.at rest :=
  rfl

/-- Every component of a path of the tree is an admissible name. -/
theorem isName_of_at {node found : Node} {path : RelPath} (wellFormed : node.WellFormed)
    (foundAt : node.at path = some found) : ∀ name ∈ path, IsName name := by
  induction path generalizing node with
  | nil => simp
  | cons first rest ih =>
      cases node with
      | leaf leaf => simp [Node.at] at foundAt
      | directory entries =>
          rw [Node.at_directory_cons, Option.bind_eq_some_iff] at foundAt
          rcases foundAt with ⟨entry, entryFound, restAt⟩
          rcases WellFormed.of_mem wellFormed (WellFormed.mem_of_lookup_eq_some entryFound)
            with ⟨firstIsName, entryWellFormed⟩
          intro name mem
          rcases List.mem_cons.mp mem with same | there
          · rw [same]
            exact firstIsName
          · exact ih entryWellFormed restAt name there

mutual

/-- The names at and under an object. -/
def Node.names : Node → List Name
  | .leaf _ => []
  | .directory entries => namesUnder entries

/-- The names of the entries under a directory. -/
def namesUnder : Entries → List Name
  | [] => []
  | (name, node) :: rest => name :: node.names ++ namesUnder rest

end

theorem mem_namesUnder_of_mem {entries : Entries} {name : Name} {node : Node}
    (mem : (name, node) ∈ entries) :
    name ∈ namesUnder entries ∧ ∀ inner ∈ node.names, inner ∈ namesUnder entries := by
  induction entries with
  | nil => simp at mem
  | cons entry rest ih =>
      rcases entry with ⟨headName, headNode⟩
      rcases List.mem_cons.mp mem with same | there
      · cases same
        constructor
        · simp [namesUnder]
        · intro inner innerMem
          simp [namesUnder, innerMem]
      · rcases ih there with ⟨nameMem, innerMem⟩
        constructor
        · simp [namesUnder, nameMem]
        · intro inner mem
          simp [namesUnder, innerMem inner mem]

/-- The components of a path of the tree are names of the tree. -/
theorem mem_names_of_at {node found : Node} {path : RelPath} (foundAt : node.at path = some found) :
    ∀ name ∈ path, name ∈ node.names := by
  induction path generalizing node with
  | nil => simp
  | cons first rest ih =>
      cases node with
      | leaf leaf => simp [Node.at] at foundAt
      | directory entries =>
          rw [Node.at_directory_cons, Option.bind_eq_some_iff] at foundAt
          rcases foundAt with ⟨entry, entryFound, restAt⟩
          rcases mem_namesUnder_of_mem (WellFormed.mem_of_lookup_eq_some entryFound)
            with ⟨firstMem, innerMem⟩
          intro name mem
          rcases List.mem_cons.mp mem with same | there
          · rw [same]
            exact firstMem
          · exact innerMem name (ih restAt name there)

/-! ## The leaves a walk reaches -/

variable (skipped : RelPath → Bool)

mutual

/-- The leaves at and under an object that no skipped path hides. -/
def Node.reached (path : RelPath) : Node → List (RelPath × Leaf)
  | .leaf leaf => [(path, leaf)]
  | .directory entries => reachedUnder path entries

/-- The leaves under a directory that no skipped path hides. -/
def reachedUnder (path : RelPath) : Entries → List (RelPath × Leaf)
  | [] => []
  | (name, node) :: rest =>
      (if skipped (path ++ [name]) then [] else node.reached (path ++ [name]))
        ++ reachedUnder path rest

end

/-- No path on the way down from a directory is skipped. -/
def Kept (path : RelPath) : RelPath → Prop
  | [] => True
  | name :: rest => skipped (path ++ [name]) = false ∧ Kept (path ++ [name]) rest

variable {skipped}

/-- A reached leaf lies under one of the directory's entries. -/
theorem mem_reachedUnder {path full : RelPath} {leaf : Leaf} {entries : Entries} :
    (full, leaf) ∈ reachedUnder skipped path entries ↔
      ∃ name node, (name, node) ∈ entries ∧ skipped (path ++ [name]) = false ∧
        (full, leaf) ∈ node.reached skipped (path ++ [name]) := by
  induction entries with
  | nil => simp [reachedUnder]
  | cons entry rest ih =>
      rcases entry with ⟨headName, headNode⟩
      rw [reachedUnder, List.mem_append, ih]
      constructor
      · rintro (here | ⟨name, node, mem, kept, leafMem⟩)
        · split at here
          · simp at here
          · rename_i kept
            exact ⟨headName, headNode, List.mem_cons_self, by simpa using kept, here⟩
        · exact ⟨name, node, List.mem_cons_of_mem _ mem, kept, leafMem⟩
      · rintro ⟨name, node, mem, kept, leafMem⟩
        rcases List.mem_cons.mp mem with same | there
        · cases same
          left
          simpa [kept] using leafMem
        · right
          exact ⟨name, node, there, kept, leafMem⟩

theorem prefix_of_mem_reachedUnder {path full : RelPath} {leaf : Leaf} {entries : Entries}
    (mem : (full, leaf) ∈ reachedUnder skipped path entries) : path <+: full := by
  induction entries using Entries.inductionOnMembers generalizing path with
  | step entries members =>
      rcases mem_reachedUnder.mp mem with ⟨name, node, entryMem, _, leafMem⟩
      apply List.IsPrefix.trans (List.prefix_append path [name])
      cases node with
      | leaf nodeLeaf =>
          simp only [Node.reached, List.mem_singleton, Prod.mk.injEq] at leafMem
          exact leafMem.1 ▸ List.prefix_rfl
      | directory sub => exact members name _ entryMem leafMem

theorem prefix_of_mem_reached {path full : RelPath} {leaf : Leaf} {node : Node}
    (mem : (full, leaf) ∈ node.reached skipped path) : path <+: full := by
  cases node with
  | leaf nodeLeaf =>
      simp only [Node.reached, List.mem_singleton, Prod.mk.injEq] at mem
      exact mem.1 ▸ List.prefix_rfl
  | directory sub => exact prefix_of_mem_reachedUnder mem

/-- The reached leaves are those on a path that is nowhere skipped. -/
theorem mem_reachedUnder_iff {entries : Entries} (wellFormed : WellFormed entries)
    {path full : RelPath} {leaf : Leaf} :
    (full, leaf) ∈ reachedUnder skipped path entries ↔
      ∃ relative, full = path ++ relative ∧ Kept skipped path relative ∧
        (Node.directory entries).at relative = some (.leaf leaf) := by
  induction entries using Entries.inductionOnMembers generalizing path with
  | step entries members =>
      rw [mem_reachedUnder]
      constructor
      · rintro ⟨name, node, mem, kept, leafMem⟩
        have found := wellFormed.lookup_eq_some mem
        have nodeWellFormed := (wellFormed.of_mem mem).2
        cases node with
        | leaf nodeLeaf =>
            simp only [Node.reached, List.mem_singleton, Prod.mk.injEq] at leafMem
            rcases leafMem with ⟨rfl, rfl⟩
            exact ⟨[name], rfl, ⟨kept, trivial⟩, by simp [found, Node.at]⟩
        | directory sub =>
            have subMembers := members name _ mem
            rw [Node.reached] at leafMem
            rcases (subMembers nodeWellFormed).mp leafMem with ⟨relative, fullEq, restKept, restAt⟩
            refine ⟨name :: relative, by simp [fullEq], ⟨kept, restKept⟩, ?_⟩
            rw [Node.at_directory_cons, found]
            exact restAt
      · rintro ⟨relative, fullEq, kept, foundAt⟩
        cases relative with
        | nil => simp [Node.at] at foundAt
        | cons name rest =>
            rw [Node.at_directory_cons, Option.bind_eq_some_iff] at foundAt
            rcases foundAt with ⟨node, found, restAt⟩
            have mem := WellFormed.mem_of_lookup_eq_some found
            refine ⟨name, node, mem, kept.1, ?_⟩
            cases node with
            | leaf nodeLeaf =>
                cases rest with
                | nil =>
                    simp only [Node.at, Option.some.injEq, Node.leaf.injEq] at restAt
                    simp [Node.reached, fullEq, restAt]
                | cons next more => simp [Node.at] at restAt
            | directory sub =>
                have subMembers := members name _ mem
                rw [Node.reached]
                exact (subMembers (wellFormed.of_mem mem).2).mpr
                  ⟨rest, by simp [fullEq], kept.2, restAt⟩

/-- No path is reached twice. -/
theorem nodup_reachedUnder {entries : Entries} (wellFormed : WellFormed entries) (path : RelPath) :
    ((reachedUnder skipped path entries).map Prod.fst).Nodup := by
  induction entries using Entries.induction generalizing path with
  | nil => simp [reachedUnder]
  | cons name node rest nodeSatisfies ih =>
      rcases wellFormed with ⟨_, fresh, nodeWellFormed, restWellFormed⟩
      have restNodup := ih restWellFormed path
      rw [reachedUnder, List.map_append]
      by_cases kept : skipped (path ++ [name]) = true
      · simpa [kept] using restNodup
      · rw [if_neg kept]
        apply List.Nodup.append
        · cases node with
          | leaf leaf => simp [Node.reached]
          | directory sub => exact nodeSatisfies nodeWellFormed (path ++ [name])
        · exact restNodup
        · -- a path under `name` and a path under another entry differ at that component
          intro full underHead underRest
          rcases List.mem_map.mp underHead with ⟨⟨_, leaf⟩, headMem, rfl⟩
          rcases List.mem_map.mp underRest with ⟨⟨_, restLeaf⟩, restMem, sameFull⟩
          rcases mem_reachedUnder.mp restMem with ⟨restName, restNode, entryMem, _, restLeafMem⟩
          rcases prefix_of_mem_reached headMem with ⟨headTail, headEq⟩
          rcases prefix_of_mem_reached restLeafMem with ⟨restTail, restEq⟩
          have components : path ++ [name] ++ headTail = path ++ [restName] ++ restTail := by
            rw [headEq, restEq]
            exact sameFull.symm
          have nameEq : name = restName := by
            simp only [List.append_assoc, List.append_cancel_left_eq, List.cons_append,
              List.nil_append, List.cons.injEq] at components
            exact components.1
          apply fresh
          rw [nameEq]
          exact List.mem_map_of_mem entryMem

end ClotoCore.Seal
