import ClotoCore.Seal.Tree

/-!
# The walk over an install tree

A stack of directories still to be read and the paths of the files found so
far.  Reading a directory visits its entries in the order the system lists
them; the walk refuses a tree with more files than a manifest may cover.
-/

namespace ClotoCore.Seal

open ClotoCore.Encoding

/-- `MAX_MANIFEST_FILES` -/
def maxManifestFiles : Nat := 20000

/-- The refusal of a tree that is too large. -/
def tooManyFiles (root : String) : Bytes :=
  utf8 s!"Refusing to seal '{root}': more than {maxManifestFiles} files under the install tree"

/-- The order in which reading a directory lists its entries. -/
structure Listing where
  order : Entries → Entries
  perm : ∀ entries, (order entries).Perm entries

/-- The walk between two entries. -/
structure Walk where
  /-- The directories still to be read, the next one first. -/
  stack : List (RelPath × Entries)
  found : List RelPath

section Walking

variable (skipped : RelPath → Bool) (listing : Listing) (root : String)

/-- The body of the loop over the entries of one directory. -/
def visit (path : RelPath) (walk : Walk) (entry : Name × Node) : Except Bytes Walk :=
  let relative := path ++ [entry.1]
  if skipped relative then
    .ok walk
  else
    match entry.2 with
    | .directory entries => .ok { walk with stack := (relative, entries) :: walk.stack }
    | .leaf (.file _) =>
        let found := walk.found ++ [relative]
        if maxManifestFiles < found.length then .error (tooManyFiles root)
        else .ok { walk with found := found }
    -- Symlinks and special files are neither hashed nor walked.
    | .leaf _ => .ok walk

/-- The loop over the entries of one directory. -/
def visitAll (path : RelPath) (walk : Walk) (entries : Entries) : Except Bytes Walk :=
  entries.foldlM (visit skipped root path) walk

mutual

/-- The number of directories at and under an object. -/
def Node.directories : Node → Nat
  | .leaf _ => 0
  | .directory entries => directoriesUnder entries + 1

/-- The number of directories under a directory. -/
def directoriesUnder : Entries → Nat
  | [] => 0
  | (_, node) :: rest => node.directories + directoriesUnder rest

end

/-- The directories of a stack, with those under them. -/
def directoriesOn : List (RelPath × Entries) → Nat
  | [] => 0
  | (_, entries) :: rest => directoriesUnder entries + 1 + directoriesOn rest

/-- The number of directories the walk may still read. -/
def Walk.remaining (walk : Walk) : Nat :=
  directoriesOn walk.stack

theorem directoriesUnder_perm {left right : Entries} (perm : left.Perm right) :
    directoriesUnder left = directoriesUnder right := by
  induction perm with
  | nil => rfl
  | cons entry _ ih => simp only [directoriesUnder, ih]
  | swap first second rest => simp only [directoriesUnder, Nat.add_left_comm]
  | trans _ _ firstIh secondIh => exact firstIh.trans secondIh

theorem directoriesUnder_order (entries : Entries) :
    directoriesUnder (listing.order entries) = directoriesUnder entries :=
  directoriesUnder_perm (listing.perm entries)

variable {skipped root}

theorem visit_remaining {path : RelPath} {walk next : Walk} {entry : Name × Node}
    (ok : visit skipped root path walk entry = .ok next) :
    next.remaining ≤ walk.remaining + entry.2.directories := by
  rcases entry with ⟨name, node⟩
  simp only [visit] at ok
  split at ok
  · cases ok
    exact Nat.le_add_right _ _
  · split at ok
    · cases ok
      simp only [Walk.remaining, directoriesOn, Node.directories]
      omega
    · split at ok
      · cases ok
      · cases ok
        exact Nat.le_add_right _ _
    · cases ok
      exact Nat.le_add_right _ _

theorem visitAll_remaining {path : RelPath} {walk next : Walk} {entries : Entries}
    (ok : visitAll skipped root path walk entries = .ok next) :
    next.remaining ≤ walk.remaining + directoriesUnder entries := by
  induction entries generalizing walk with
  | nil =>
      cases ok
      exact Nat.le_add_right _ _
  | cons entry rest ih =>
      rcases entry with ⟨name, node⟩
      rw [visitAll, List.foldlM_cons] at ok
      cases visited : visit skipped root path walk (name, node) with
      | error text => rw [visited] at ok; cases ok
      | ok middle =>
          rw [visited] at ok
          have restBound := ih ok
          have headBound := visit_remaining visited
          simp only [directoriesUnder] at restBound headBound ⊢
          omega

variable (skipped root)

/-- `collect_files` before the sort: read the top directory of the stack until
none is left. -/
def walkTree : Walk → Except Bytes (List RelPath)
  | ⟨[], found⟩ => .ok found
  | ⟨(path, entries) :: rest, found⟩ =>
      match _visited : visitAll skipped root path ⟨rest, found⟩ (listing.order entries) with
      | .error text => .error text
      | .ok next => walkTree next
  termination_by walk => walk.remaining
  decreasing_by
    have bound := visitAll_remaining _visited
    rw [directoriesUnder_order] at bound
    simp only [Walk.remaining, directoriesOn] at bound ⊢
    omega

/-! ## What the walk collects -/

/-- The path of a file among the leaves. -/
def fileOf : RelPath × Leaf → Option RelPath
  | (path, .file _) => some path
  | _ => none

/-- The files under a directory that no skipped path hides. -/
def filesUnder (path : RelPath) (entries : Entries) : List RelPath :=
  (reachedUnder skipped path entries).filterMap fileOf

/-- The files found together with those under the directories still to be
read. -/
def Walk.pending (walk : Walk) : List RelPath :=
  walk.found ++ walk.stack.flatMap fun directory => filesUnder skipped directory.1 directory.2

/-- A loop that ends with the expected files within the ceiling, or is refused
because there are more. -/
def Visits (expected : List RelPath) : Except Bytes Walk → Prop
  | .ok next => (next.pending skipped).Perm expected ∧ next.found.length ≤ maxManifestFiles
  | .error text => text = tooManyFiles root ∧ maxManifestFiles < expected.length

/-- A walk that collects the expected files, or is refused because there are
more than the ceiling. -/
def Collects (expected : List RelPath) : Except Bytes (List RelPath) → Prop
  | .ok files => files.Perm expected ∧ expected.length ≤ maxManifestFiles
  | .error text => text = tooManyFiles root ∧ maxManifestFiles < expected.length

variable {skipped root}

theorem filesUnder_cons (path : RelPath) (entry : Name × Node) (rest : Entries) :
    filesUnder skipped path (entry :: rest)
      = filesUnder skipped path [entry] ++ filesUnder skipped path rest := by
  simp [filesUnder, reachedUnder]

theorem filesUnder_eq_flatMap (path : RelPath) (entries : Entries) :
    filesUnder skipped path entries
      = entries.flatMap fun entry => filesUnder skipped path [entry] := by
  induction entries with
  | nil => rfl
  | cons entry rest ih => rw [filesUnder_cons, ih, List.flatMap_cons]

theorem filesUnder_order (path : RelPath) (entries : Entries) :
    (filesUnder skipped path (listing.order entries)).Perm (filesUnder skipped path entries) := by
  rw [filesUnder_eq_flatMap, filesUnder_eq_flatMap path entries]
  exact (listing.perm entries).flatMap_right _

theorem Visits.perm {expected expected' : List RelPath} {result : Except Bytes Walk}
    (visits : Visits skipped root expected result) (same : expected.Perm expected') :
    Visits skipped root expected' result := by
  cases result with
  | ok next => exact ⟨visits.1.trans same, visits.2⟩
  | error text => exact ⟨visits.1, by rw [← same.length_eq]; exact visits.2⟩

theorem Collects.perm {expected expected' : List RelPath} {result : Except Bytes (List RelPath)}
    (collects : Collects root expected result) (same : expected.Perm expected') :
    Collects root expected' result := by
  cases result with
  | ok files => exact ⟨collects.1.trans same, by rw [← same.length_eq]; exact collects.2⟩
  | error text => exact ⟨collects.1, by rw [← same.length_eq]; exact collects.2⟩

theorem filesUnder_hidden {path : RelPath} {name : Name} (node : Node)
    (hidden : skipped (path ++ [name]) = true) : filesUnder skipped path [(name, node)] = [] := by
  simp [filesUnder, reachedUnder, hidden]

theorem filesUnder_directory {path : RelPath} {name : Name} (entries : Entries)
    (kept : skipped (path ++ [name]) = false) :
    filesUnder skipped path [(name, .directory entries)]
      = filesUnder skipped (path ++ [name]) entries := by
  simp [filesUnder, reachedUnder, Node.reached, kept]

theorem filesUnder_leaf {path : RelPath} {name : Name} (leaf : Leaf)
    (kept : skipped (path ++ [name]) = false) :
    filesUnder skipped path [(name, .leaf leaf)] = (fileOf (path ++ [name], leaf)).toList := by
  cases leaf <;> simp [filesUnder, reachedUnder, Node.reached, kept, fileOf, List.filterMap_cons]

/-- Visiting an entry accounts for the files at and under it. -/
theorem visit_visits (path : RelPath) {walk : Walk} (entry : Name × Node)
    (within : walk.found.length ≤ maxManifestFiles) :
    Visits skipped root (walk.pending skipped ++ filesUnder skipped path [entry])
      (visit skipped root path walk entry) := by
  rcases entry with ⟨name, node⟩
  cases hidden : skipped (path ++ [name]) with
  | true =>
      rw [filesUnder_hidden node hidden, List.append_nil]
      simp [visit, hidden, Visits, within]
  | false =>
      cases node with
      | directory entries =>
          rw [filesUnder_directory entries hidden]
          simp only [visit, hidden, Visits, Walk.pending, List.append_assoc]
          exact ⟨List.perm_append_comm.append_left _, within⟩
      | leaf leaf =>
          rw [filesUnder_leaf leaf hidden]
          cases leaf with
          | file content =>
              simp only [visit, hidden, fileOf, Option.toList_some, Bool.false_eq_true, if_false]
              split
              · rename_i exceeds
                simp only [List.length_append, List.length_singleton] at exceeds
                constructor
                · rfl
                · simp only [Walk.pending, List.length_append, List.length_singleton]
                  omega
              · rename_i notOver
                simp only [Visits, Walk.pending, List.append_assoc]
                exact ⟨List.perm_append_comm.append_left _, Nat.le_of_not_lt notOver⟩
          | symlink target => simp [visit, hidden, Visits, fileOf, within]
          | special => simp [visit, hidden, Visits, fileOf, within]

/-- Reading a directory accounts for the files under it. -/
theorem visitAll_visits (path : RelPath) (walk : Walk) (entries : Entries)
    (within : walk.found.length ≤ maxManifestFiles) :
    Visits skipped root (walk.pending skipped ++ filesUnder skipped path entries)
      (visitAll skipped root path walk entries) := by
  induction entries generalizing walk with
  | nil =>
      constructor
      · simp [filesUnder, reachedUnder]
      · exact within
  | cons entry rest ih =>
      have headVisits : Visits skipped root _ _ := visit_visits path entry within
      rw [visitAll, List.foldlM_cons, filesUnder_cons]
      cases visited : visit skipped root path walk entry with
      | error text =>
          rw [visited] at headVisits
          have exceeds := headVisits.2
          constructor
          · exact headVisits.1
          · simp only [List.length_append] at exceeds ⊢
            omega
      | ok middle =>
          rw [visited] at headVisits
          have restVisits := ih middle headVisits.2
          apply restVisits.perm
          rw [← List.append_assoc]
          exact headVisits.1.append_right _

/-- Reading the top directory keeps account of the files still expected. -/
theorem visitAll_top_visits (path : RelPath) (entries : Entries)
    (rest : List (RelPath × Entries)) {found : List RelPath}
    (within : found.length ≤ maxManifestFiles) :
    Visits skipped root (Walk.pending skipped ⟨(path, entries) :: rest, found⟩)
      (visitAll skipped root path ⟨rest, found⟩ (listing.order entries)) := by
  have visits : Visits skipped root _ _ :=
    visitAll_visits path ⟨rest, found⟩ (listing.order entries) within
  apply visits.perm
  simp only [Walk.pending, List.flatMap_cons, List.append_assoc]
  apply List.Perm.append_left
  exact List.perm_append_comm.trans ((filesUnder_order listing path entries).append_right _)

theorem walkTree_cons (path : RelPath) (entries : Entries) (rest : List (RelPath × Entries))
    (found : List RelPath) :
    walkTree skipped listing root ⟨(path, entries) :: rest, found⟩
      = match visitAll skipped root path ⟨rest, found⟩ (listing.order entries) with
        | .error text => .error text
        | .ok next => walkTree skipped listing root next := by
  rw [walkTree]
  split <;> rename_i visited <;> rw [visited]

/-- The walk collects every file that no skipped path hides, whatever the order
in which directories are listed. -/
theorem walkTree_collects (walk : Walk) (within : walk.found.length ≤ maxManifestFiles) :
    Collects root (walk.pending skipped) (walkTree skipped listing root walk) := by
  induction walk using walkTree.induct skipped listing root with
  | case1 found =>
      rw [walkTree]
      simpa [Collects, Walk.pending] using within
  | case2 path entries rest found text visited =>
      have visits : Visits skipped root _ _ := visitAll_top_visits listing path entries rest within
      rw [visited] at visits
      rw [walkTree_cons, visited]
      exact visits
  | case3 path entries rest found next visited ih =>
      have visits : Visits skipped root _ _ := visitAll_top_visits listing path entries rest within
      rw [visited] at visits
      rw [walkTree_cons, visited]
      exact (ih visits.2).perm visits.1

/-! ## The files of a tree -/

/-- The walk of a whole tree. -/
def walkFrom (tree : InstallTree) : Walk :=
  ⟨[([], tree.entries)], []⟩

/-- The files of a tree that no skipped path hides. -/
def InstallTree.files (skipped : RelPath → Bool) (tree : InstallTree) : List RelPath :=
  filesUnder skipped [] tree.entries

theorem walkTree_walkFrom (tree : InstallTree) :
    Collects root (tree.files skipped) (walkTree skipped listing root (walkFrom tree)) := by
  have collects : Collects root ((walkFrom tree).pending skipped) _ :=
    walkTree_collects listing (walkFrom tree) (Nat.zero_le _)
  simpa [walkFrom, Walk.pending, InstallTree.files] using collects

theorem mem_files {tree : InstallTree} {path : RelPath} :
    path ∈ tree.files skipped ↔
      Kept skipped [] path ∧ ∃ content, tree.Holds path (.file content) := by
  simp only [InstallTree.files, filesUnder, List.mem_filterMap]
  constructor
  · rintro ⟨⟨full, leaf⟩, mem, isFile⟩
    rcases (mem_reachedUnder_iff tree.wellFormed).mp mem with ⟨relative, rfl, kept, held⟩
    cases leaf with
    | file content =>
        cases isFile
        exact ⟨kept, content, held⟩
    | symlink target => cases isFile
    | special => cases isFile
  · rintro ⟨kept, content, held⟩
    exact ⟨(path, .file content),
      (mem_reachedUnder_iff tree.wellFormed).mpr ⟨path, rfl, kept, held⟩, rfl⟩

theorem nodup_files (tree : InstallTree) : (tree.files skipped).Nodup := by
  have paths : ((reachedUnder skipped [] tree.entries).map Prod.fst).Nodup :=
    nodup_reachedUnder tree.wellFormed []
  have sub : (tree.files skipped).Sublist
      ((reachedUnder skipped [] tree.entries).map Prod.fst) := by
    rw [InstallTree.files, filesUnder]
    generalize reachedUnder skipped [] tree.entries = leaves
    induction leaves with
    | nil => exact List.Sublist.slnil
    | cons head rest ih =>
        rcases head with ⟨path, leaf⟩
        cases leaf with
        | file content => exact ih.cons_cons path
        | symlink target => exact ih.cons path
        | special => exact ih.cons path
  exact paths.sublist sub

end Walking

end ClotoCore.Seal
