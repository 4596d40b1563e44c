import ClotoCore.Path.Links

/-!
# Opening files in a tree with links

A way that is followed to its end comes to a file or a directory, and the names on the way
down to that lead there again.  A file that is not there yet is made where the last name of
a way leads, through the links that dangle.
-/

namespace ClotoCore.Links

open ClotoCore.Lexical (Segment)

universe u

variable {α : Type u} [DecidableEq α]

/-- The way down to a place. -/
def wayTo (place : Place α) : List (Segment α) :=
  place.map .name

/-- A way without what stays where it is. -/
def components (way : List (Segment α)) : List (Segment α) :=
  way.filter (· ≠ .here)

namespace Tree

variable (tree : Tree α)

/-- The place of the file that a way names, which is made if it is missing. -/
def create (limit : Nat) (start : Place α) (way : List (Segment α)) : Except Stop (Place α) :=
  match tree.trace true limit start way with
  | .error stop => .error stop
  | .ok reached => if tree.find reached.1 = some .dir then .error .blocked else .ok reached.1

/-- The place of the file that a way names, which has to be there. -/
def openFile (limit : Nat) (way : List (Segment α)) : Except Stop (Place α) :=
  match tree.follow limit [] way with
  | .error stop => .error stop
  | .ok place => if tree.find place = some .file then .ok place else .error .blocked

variable {tree} {limit : Nat} {start place final : Place α} {way : List (Segment α)}

/-- There is no link at the end of a way. -/
theorem find_of_walk {left : Nat}
    {jump : Place α → Bool → List (Segment α) → Except Stop (Place α × Nat)}
    (jumps : ∀ place rooted way reached, tree.find place = some .dir →
      jump place rooted way = .ok reached →
        tree.find reached.1 = some .dir ∨ tree.find reached.1 = some .file)
    (isDir : tree.find start = some .dir) {reached : Place α × Nat}
    (walked : tree.walk false left jump start way = .ok reached) :
    tree.find reached.1 = some .dir ∨ tree.find reached.1 = some .file := by
  induction way generalizing start with
  | nil =>
      cases walked
      exact Or.inl isDir
  | cons segment rest ih =>
      cases segment with
      | here => exact ih isDir walked
      | up => exact ih (find_dropLast isDir) walked
      | name name =>
          simp only [walk] at walked
          split at walked
          · cases walked
          · next found => exact ih found walked
          · next found =>
            split at walked
            · cases walked
              exact Or.inr found
            · cases walked
          · exact jumps _ _ _ _ isDir walked

theorem find_of_trace (isDir : tree.find start = some .dir) {reached : Place α × Nat}
    (traced : tree.trace false limit start way = .ok reached) :
    tree.find reached.1 = some .dir ∨ tree.find reached.1 = some .file := by
  induction limit generalizing start way reached with
  | zero =>
      refine find_of_walk ?_ isDir traced
      intro _ _ _ _ _ jumped
      cases jumped
  | succ limit ih =>
      refine find_of_walk ?_ isDir traced
      intro place rooted way reached isDir jumped
      refine ih ?_ jumped
      split
      · exact find_root tree
      · exact isDir

theorem find_of_follow (isDir : tree.find start = some .dir)
    (followed : tree.follow limit start way = .ok final) :
    tree.find final = some .dir ∨ tree.find final = some .file := by
  obtain ⟨left, traced⟩ := exists_trace_of_follow followed
  exact find_of_trace isDir traced

/-- The way down to a directory goes on from there. -/
theorem trace_wayTo (making : Bool) (isDir : tree.find place = some .dir)
    (more : List (Segment α)) :
    tree.trace making limit [] (wayTo place ++ more) = tree.trace making limit place more := by
  induction place using List.reverseRecOn generalizing more with
  | nil => rfl
  | append_singleton front name ih =>
      have parent : tree.find front = some .dir := by
        have above := find_dropLast isDir
        rwa [List.dropLast_concat] at above
      have split : wayTo (front ++ [name]) ++ more = wayTo front ++ (.name name :: more) := by
        simp [wayTo]
      rw [split, ih parent]
      cases limit <;> simp only [trace, walk, isDir]

/-- The way down to a directory leads there. -/
theorem follow_wayTo_dir (isDir : tree.find place = some .dir) :
    tree.follow limit [] (wayTo place) = .ok place := by
  have traced : tree.trace false limit [] (wayTo place ++ []) = tree.trace false limit place [] :=
    trace_wayTo false isDir []
  rw [List.append_nil] at traced
  rw [follow, traced]
  cases limit <;> rfl

/-- A name below a directory is followed from there. -/
theorem follow_wayTo_concat {name : α} (isDir : tree.find place = some .dir) :
    tree.follow limit [] (wayTo (place ++ [name])) = tree.follow limit place [.name name] := by
  have split : wayTo (place ++ [name]) = wayTo place ++ [.name name] := by simp [wayTo]
  rw [split, follow, follow, trace_wayTo false isDir]

/-- The way down to a file or a directory leads there. -/
theorem follow_wayTo (found : tree.find place = some .dir ∨ tree.find place = some .file) :
    tree.follow limit [] (wayTo place) = .ok place := by
  rcases found with isDir | isFile
  · exact follow_wayTo_dir isDir
  · rcases List.eq_nil_or_concat' place with rfl | ⟨front, name, rfl⟩
    · rw [find_root] at isFile
      cases isFile
    · have parent : tree.find front = some .dir := by
        apply find_of_isPrefix _ (List.prefix_append front [name]) (by simp)
        rw [isFile]
        exact Option.some_ne_none _
      rw [follow_wayTo_concat parent]
      exact follow_name (Or.inr isFile)

/-- Nothing lies below a file. -/
theorem trace_below_file (making : Bool) (isFile : tree.find place = some .file) (name : α) :
    tree.trace making limit [] (wayTo (place ++ [name])) = .error .blocked := by
  rcases List.eq_nil_or_concat' place with rfl | ⟨front, last, rfl⟩
  · rw [find_root] at isFile
    cases isFile
  · have parent : tree.find front = some .dir := by
      apply find_of_isPrefix _ (List.prefix_append front [last]) (by simp)
      rw [isFile]
      exact Option.some_ne_none _
    have split : wayTo (front ++ [last] ++ [name]) = wayTo front ++ [.name last, .name name] := by
      simp [wayTo]
    rw [split, trace_wayTo making parent]
    cases limit <;> simp [trace, walk, isFile]

theorem walk_of_linkless {making : Bool} {left other : Nat}
    {jump : Place α → Bool → List (Segment α) → Except Stop (Place α × Nat)}
    {reached : Place α × Nat}
    (walked : tree.walk making left (fun _ _ _ => .error .blocked) start way = .ok reached) :
    tree.walk making other jump start way = .ok (reached.1, other) := by
  induction way generalizing start with
  | nil =>
      cases walked
      rfl
  | cons segment rest ih =>
      cases segment with
      | here => exact ih walked
      | up => exact ih walked
      | name name =>
          simp only [walk] at walked ⊢
          split at walked
          · split at walked
            · next last =>
              cases walked
              rw [if_pos last]
            · cases walked
          · exact ih walked
          · split at walked
            · next last =>
              cases walked
              rw [if_pos last]
            · cases walked
          · cases walked

/-- What needs no link does not depend on how many are followed. -/
theorem follow_of_linkless (followed : tree.follow 0 start way = .ok final) :
    tree.follow limit start way = .ok final := by
  obtain ⟨left, traced⟩ := exists_trace_of_follow followed
  cases limit with
  | zero => exact followed
  | succ limit => exact follow_of_trace (walk_of_linkless traced)

/-- What stays where it is can be left out of the end of a way. -/
theorem walk_components {left : Nat}
    {jump : Place α → Bool → List (Segment α) → Except Stop (Place α × Nat)}
    {reached : Place α × Nat}
    (jumps : ∀ place rooted front rest, jump place rooted (front ++ rest) = .ok reached →
      jump place rooted (front ++ components rest) = .ok reached)
    (front rest : List (Segment α))
    (walked : tree.walk false left jump start (front ++ rest) = .ok reached) :
    tree.walk false left jump start (front ++ components rest) = .ok reached := by
  induction front generalizing start with
  | cons segment front ih =>
      cases segment with
      | here => exact ih walked
      | up => exact ih walked
      | name name =>
          simp only [List.cons_append, walk] at walked ⊢
          split at walked
          · cases walked
          · exact ih walked
          · split at walked
            · next last =>
              have both := List.append_eq_nil_iff.mp (List.isEmpty_iff.mp last)
              rw [both.1, both.2]
              exact walked
            · cases walked
          · rw [← List.append_assoc] at walked ⊢
            exact jumps _ _ _ _ walked
  | nil =>
      rw [List.nil_append] at walked ⊢
      induction rest generalizing start with
      | nil => exact walked
      | cons segment rest ih =>
          cases segment with
          | here => exact ih walked
          | up => exact ih walked
          | name name =>
              have kept : components (.name name :: rest) = .name name :: components rest := by
                simp [components]
              rw [kept]
              simp only [walk] at walked ⊢
              split at walked
              · cases walked
              · exact ih walked
              · split at walked
                · next last =>
                  rw [List.isEmpty_iff.mp last]
                  exact walked
                · cases walked
              · exact jumps _ _ _ _ walked

theorem trace_components {front rest : List (Segment α)} {reached : Place α × Nat}
    (traced : tree.trace false limit start (front ++ rest) = .ok reached) :
    tree.trace false limit start (front ++ components rest) = .ok reached := by
  induction limit generalizing start front rest with
  | zero =>
      refine walk_components ?_ front rest traced
      intro _ _ _ _ jumped
      cases jumped
  | succ limit ih =>
      refine walk_components ?_ front rest traced
      intro _ _ _ _ jumped
      exact ih jumped

/-- What stays where it is can be left out of a way that is followed to its end. -/
theorem follow_components (followed : tree.follow limit start way = .ok final) :
    tree.follow limit start (components way) = .ok final := by
  obtain ⟨left, traced⟩ := exists_trace_of_follow followed
  rw [← List.nil_append way] at traced
  exact follow_of_trace (trace_components traced)

/-! ## Opening -/

theorem openFile_eq_ok_iff :
    tree.openFile limit way = .ok final ↔
      tree.follow limit [] way = .ok final ∧ tree.find final = some .file := by
  unfold openFile
  split
  · next followed => simp [followed]
  · next place followed =>
    split
    · next isFile =>
      simp only [followed, Except.ok.injEq]
      constructor
      · rintro rfl
        exact ⟨rfl, isFile⟩
      · exact fun both => both.1
    · next notFile =>
      simp only [followed, Except.ok.injEq, reduceCtorEq, false_iff, not_and]
      rintro rfl
      exact notFile

/-- Below a directory a file is made where the name is, unless that is a link. -/
theorem create_wayTo_concat {name : α} (isDir : tree.find place = some .dir)
    (notLink : ∀ rooted target, tree.find (place ++ [name]) ≠ some (.link rooted target))
    (created : tree.create limit [] (wayTo (place ++ [name])) = .ok final) :
    final = place ++ [name] := by
  have split : wayTo (place ++ [name]) = wayTo place ++ [.name name] := by simp [wayTo]
  have reached : tree.trace true limit place [.name name] = .ok (place ++ [name], limit) := by
    cases found : tree.find (place ++ [name]) with
    | none => cases limit <;> simp [trace, walk, found]
    | some node =>
        cases node with
        | dir | file => cases limit <;> simp [trace, walk, found]
        | link rooted target => exact absurd found (notLink rooted target)
  rw [create, split, trace_wayTo true isDir, reached] at created
  dsimp only at created
  split at created
  · cases created
  · cases created
    rfl

/-- Where there is a file or a directory nothing else is made. -/
theorem create_wayTo (found : tree.find place = some .dir ∨ tree.find place = some .file)
    (created : tree.create limit [] (wayTo place) = .ok final) : final = place := by
  rcases List.eq_nil_or_concat' place with rfl | ⟨front, name, rfl⟩
  · have root : tree.trace true limit [] (wayTo []) = .ok ([], limit) := by
      cases limit <;> rfl
    rw [create, root] at created
    simp only [find_root, if_true] at created
    cases created
  · have there : tree.find (front ++ [name]) ≠ none := by
      rcases found with isDir | isFile
      · rw [isDir]
        exact Option.some_ne_none _
      · rw [isFile]
        exact Option.some_ne_none _
    refine create_wayTo_concat
      (find_of_isPrefix there (List.prefix_append front [name]) (by simp)) ?_ created
    intro rooted target isLink
    rw [isLink] at found
    simp at found

/-- A tree with one more file, if there is room for it. -/
def withFile (tree : Tree α) (place : Place α) : Tree α :=
  if free : tree.find place = none ∧ tree.find place.dropLast = some .dir then
    { nodes := tree.nodes ++ [(place, .file)]
      named := by
        intro entry mem
        rcases List.mem_append.mp mem with old | new
        · exact tree.named entry old
        · rw [List.mem_singleton.mp new]
          rintro rfl
          exact absurd free.1 (by simp [find_root])
      distinct := by
        rw [List.map_append, List.nodup_append]
        refine ⟨tree.distinct, List.nodup_singleton _, ?_⟩
        intro other there last new same
        rcases List.mem_map.mp there with ⟨entry, mem, rfl⟩
        have here : entry.1 = place := same.trans (List.mem_singleton.mp new)
        have found := (find_eq_some_iff (tree.named entry mem)).mpr mem
        rw [here, free.1] at found
        cases found
      grounded := by
        intro entry mem
        rcases List.mem_append.mp mem with old | new
        · exact (tree.grounded entry old).imp id (List.mem_append_left _)
        · rw [List.mem_singleton.mp new]
          by_cases top : place.dropLast = []
          · exact Or.inl top
          · exact Or.inr (List.mem_append_left _ ((find_eq_some_iff top).mp free.2)) }
  else tree

end Tree

end ClotoCore.Links
