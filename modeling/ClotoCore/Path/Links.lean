import ClotoCore.Path.Lexical
import Mathlib.Data.List.Induction
import Mathlib.Data.List.Nodup

/-!
# Trees with symbolic links

A tree has files, directories and links at places below its root.  A way is walked along
its names, through the links that it meets, and comes to a place or stops: at a name that
is missing, or where there is no directory to go on from.  In a tree from which something
has been taken away, a way comes to the same place or stops at what is missing.
-/

namespace ClotoCore.Links

open ClotoCore.Lexical (Segment)

universe u v

variable {α : Type u} [DecidableEq α]

/-- A place, by the names on the way down to it. -/
abbrev Place (α : Type u) := List α

/-- What may be at a place. -/
inductive Node (α : Type u) where
  | file
  | dir
  | link (rooted : Bool) (way : List (Segment α))
  deriving DecidableEq

/-- The nodes of a tree but for its root, which is a directory. -/
@[ext]
structure Tree (α : Type u) [DecidableEq α] where
  nodes : List (Place α × Node α)
  named : ∀ entry ∈ nodes, entry.1 ≠ []
  distinct : (nodes.map Prod.fst).Nodup
  grounded : ∀ entry ∈ nodes,
    entry.1.dropLast = [] ∨ (entry.1.dropLast, Node.dir) ∈ nodes

/-- Why a way stops. -/
inductive Stop where
  | missing
  | blocked
  deriving DecidableEq

/-- A set of places that goes on downwards and spares the root. -/
@[ext]
structure Region (α : Type u) where
  holds : Place α → Bool
  closed : ∀ place name, holds place = true → holds (place ++ [name]) = true
  spares : holds [] = false

/-- The places in both regions. -/
def Region.both (first second : Region α) : Region α where
  holds place := first.holds place && second.holds place
  closed := by
    intro place name holds
    simp only [Bool.and_eq_true] at holds ⊢
    exact ⟨first.closed place name holds.1, second.closed place name holds.2⟩
  spares := by
    simp [first.spares]

/-- The places in one of the regions. -/
def Region.either (first second : Region α) : Region α where
  holds place := first.holds place || second.holds place
  closed := by
    intro place name holds
    simp only [Bool.or_eq_true] at holds ⊢
    rcases holds with holds | holds
    · exact Or.inl (first.closed place name holds)
    · exact Or.inr (second.closed place name holds)
  spares := by
    simp [first.spares, second.spares]

/-- The rest of a region, but for what is on the way down to a place. -/
def Region.beside (region : Region α) (place : Place α) : Region α where
  holds other := region.holds other && !other.isPrefixOf place
  closed := by
    intro other name holds
    simp only [Bool.and_eq_true, Bool.not_eq_true', ← Bool.not_eq_true,
      List.isPrefixOf_iff_prefix] at holds ⊢
    refine ⟨region.closed other name holds.1, ?_⟩
    intro leads
    exact holds.2 ((List.prefix_append other [name]).trans leads)
  spares := by
    simp [region.spares]

/-- The region without places. -/
def Region.nothing : Region α where
  holds _ := false
  closed _ _ holds := holds
  spares := rfl

theorem Region.nothing_beside (place : Place α) : (nothing : Region α).beside place = nothing :=
  rfl

/-- What is beside a place is beside what is around it. -/
theorem Region.beside_beside {region : Region α} {top place : Place α} (around : top <+: place) :
    (region.beside place).beside top = region.beside place := by
  apply Region.ext
  funext other
  simp only [beside]
  by_cases leads : other.isPrefixOf top = true
  · have further : other.isPrefixOf place = true :=
      List.isPrefixOf_iff_prefix.mpr ((List.isPrefixOf_iff_prefix.mp leads).trans around)
    rw [leads, further]
    simp
  · rw [Bool.not_eq_true] at leads
    rw [leads]
    simp

namespace Tree

/-- What is at a place. -/
def find (tree : Tree α) (place : Place α) : Option (Node α) :=
  if place = [] then some .dir
  else (tree.nodes.find? fun entry => entry.1 = place).map Prod.snd

/-- A tree from which a region has been taken away. -/
def without (tree : Tree α) (region : Region α) : Tree α where
  nodes := tree.nodes.filter fun entry => !region.holds entry.1
  named entry mem := tree.named entry (List.mem_of_mem_filter mem)
  distinct := (List.filter_sublist.map Prod.fst).nodup tree.distinct
  grounded := by
    intro entry mem
    rcases List.mem_filter.mp mem with ⟨here, kept⟩
    rcases tree.grounded entry here with top | parent
    · exact Or.inl top
    · right
      refine List.mem_filter.mpr ⟨parent, ?_⟩
      rw [Bool.not_eq_true', Bool.eq_false_iff] at kept ⊢
      intro gone
      apply kept
      have split := List.dropLast_append_getLast (tree.named entry here)
      have holds := region.closed _ (entry.1.getLast (tree.named entry here)) gone
      rwa [split] at holds

theorem find_root (tree : Tree α) : tree.find [] = some .dir :=
  if_pos rfl

theorem find_eq_some_iff {tree : Tree α} {place : Place α} {node : Node α} (named : place ≠ []) :
    tree.find place = some node ↔ (place, node) ∈ tree.nodes := by
  rw [find, if_neg named, Option.map_eq_some_iff]
  constructor
  · rintro ⟨entry, found, rfl⟩
    have same : entry.1 = place := by simpa using List.find?_some found
    rw [← same]
    exact List.mem_of_find?_eq_some found
  · intro mem
    have isSome : (tree.nodes.find? fun entry => entry.1 = place).isSome = true := by
      rw [List.find?_isSome]
      exact ⟨_, mem, by simp⟩
    rcases Option.isSome_iff_exists.mp isSome with ⟨entry, found⟩
    refine ⟨entry, found, ?_⟩
    have same : entry.1 = place := by simpa using List.find?_some found
    have equal := List.inj_on_of_nodup_map tree.distinct (List.mem_of_find?_eq_some found) mem same
    rw [equal]

theorem find_without {tree : Tree α} {region : Region α} {place : Place α} :
    (tree.without region).find place = if region.holds place then none else tree.find place := by
  by_cases named : place = []
  · subst named
    rw [region.spares, find_root, find_root]
    rfl
  · by_cases gone : region.holds place = true
    · rw [if_pos gone, Option.eq_none_iff_forall_ne_some]
      intro node found
      have kept := (List.mem_filter.mp ((find_eq_some_iff named).mp found)).2
      simp [gone] at kept
    · rw [if_neg gone]
      apply Option.ext
      intro node
      rw [find_eq_some_iff named, find_eq_some_iff named]
      simp [without, gone]

/-- What a place lies in is a directory. -/
theorem find_of_isPrefix {tree : Tree α} {place below : Place α} (there : tree.find below ≠ none)
    (leads : place <+: below) (inside : place ≠ below) : tree.find place = some .dir := by
  rcases leads with ⟨names, rfl⟩
  induction names using List.reverseRecOn with
  | nil => simp at inside
  | append_singleton names name ih =>
      have named : place ++ (names ++ [name]) ≠ [] := by simp
      rcases Option.ne_none_iff_exists'.mp there with ⟨node, found⟩
      have parent := tree.grounded _ ((find_eq_some_iff named).mp found)
      rw [← List.append_assoc, List.dropLast_concat] at parent
      have isDir : tree.find (place ++ names) = some .dir := by
        rcases parent with top | mem
        · rw [top]
          exact find_root tree
        · by_cases top : place ++ names = []
          · rw [top]
            exact find_root tree
          · exact (find_eq_some_iff top).mpr mem
      by_cases here : names = []
      · subst here
        simpa using isDir
      · apply ih
        · rw [isDir]
          exact Option.some_ne_none _
        · simpa using here

theorem find_ne_none_of_prefix {tree : Tree α} {place below : Place α}
    (there : tree.find below ≠ none) (leads : place <+: below) : tree.find place ≠ none := by
  by_cases same : place = below
  · rw [same]
    exact there
  · rw [find_of_isPrefix there leads same]
    exact Option.some_ne_none _

/-- Nothing is in a tree that is not in the other. -/
def Sub (tree other : Tree α) : Prop :=
  ∀ place, tree.find place = none ∨ tree.find place = other.find place

theorem Sub.refl (tree : Tree α) : tree.Sub tree :=
  fun _ => Or.inr rfl

theorem Sub.trans {first second third : Tree α} (left : first.Sub second)
    (right : second.Sub third) : first.Sub third := by
  intro place
  rcases left place with gone | same
  · exact Or.inl gone
  · rcases right place with gone | further
    · exact Or.inl (same.trans gone)
    · exact Or.inr (same.trans further)

theorem Sub.find_eq_none {tree other : Tree α} (sub : tree.Sub other) {place : Place α}
    (gone : other.find place = none) : tree.find place = none := by
  rcases sub place with here | same
  · exact here
  · exact same.trans gone

theorem without_sub (tree : Tree α) (region : Region α) : (tree.without region).Sub tree := by
  intro place
  rw [find_without]
  split
  · exact Or.inl rfl
  · exact Or.inr rfl

/-! ## Walking -/

variable (tree : Tree α)

/-- Go on from a place, if it is a directory. -/
def goOn {β : Type v} (place : Place α) (next : Except Stop β) : Except Stop β :=
  match tree.find place with
  | some .dir => next
  | some _ => .error .blocked
  | none => .error .missing

/-- Walk along a way, where `jump` goes on at a link with its way before the rest, and
`left` more links may be followed.  The last name may be missing where it is to be
made. -/
def walk (making : Bool) (left : Nat)
    (jump : Place α → Bool → List (Segment α) → Except Stop (Place α × Nat)) :
    Place α → List (Segment α) → Except Stop (Place α × Nat)
  | place, [] => .ok (place, left)
  | place, .here :: rest => walk making left jump place rest
  | place, .up :: rest => walk making left jump place.dropLast rest
  | place, .name name :: rest =>
      match tree.find (place ++ [name]) with
      | none => if making && rest.isEmpty then .ok (place ++ [name], left) else .error .missing
      | some .dir => walk making left jump (place ++ [name]) rest
      | some .file => if rest.isEmpty then .ok (place ++ [name], left) else .error .blocked
      | some (.link rooted way) => jump place rooted (way ++ rest)

/-- Follow a way and all the links on it and on their ways, as many as may be followed, to
where it comes and how many more could have been. -/
def trace (making : Bool) : Nat → Place α → List (Segment α) → Except Stop (Place α × Nat)
  | 0 => tree.walk making 0 fun _ _ _ => .error .blocked
  | limit + 1 =>
      tree.walk making (limit + 1) fun place rooted way =>
        trace making limit (if rooted then [] else place) way

/-- Follow a way and the links on it, as many as may be followed. -/
def follow (limit : Nat) (place : Place α) (way : List (Segment α)) : Except Stop (Place α) :=
  (tree.trace false limit place way).map Prod.fst

/-- The place that the last name of a way has, once the rest of the way is followed. -/
def locate (limit : Nat) (way : List (Segment α)) : Except Stop (Place α) :=
  match way.getLast? with
  | some (.name last) =>
      match tree.follow limit [] way.dropLast with
      | .error stop => .error stop
      | .ok parent => tree.goOn parent (.ok (parent ++ [last]))
  | _ => .error .blocked

variable {tree} {other : Tree α}

/-- A way stops at what is missing, or comes to the same as elsewhere. -/
def SameOrMissing {β : Type v} (first second : Except Stop β) : Prop :=
  first = .error .missing ∨ first = second

theorem Sub.goOn {β : Type v} (sub : tree.Sub other) {place : Place α}
    {next otherNext : Except Stop β} (same : SameOrMissing next otherNext) :
    SameOrMissing (tree.goOn place next) (other.goOn place otherNext) := by
  unfold Tree.goOn
  rcases sub place with gone | found
  · rw [gone]
    exact Or.inl rfl
  · rw [found]
    split
    · exact same
    · exact Or.inr rfl
    · exact Or.inr rfl

theorem Sub.walk (sub : tree.Sub other) {left : Nat}
    {jump otherJump : Place α → Bool → List (Segment α) → Except Stop (Place α × Nat)}
    (jumps : ∀ place rooted way,
      SameOrMissing (jump place rooted way) (otherJump place rooted way))
    (place : Place α) (way : List (Segment α)) :
    SameOrMissing (tree.walk false left jump place way)
      (other.walk false left otherJump place way) := by
  induction way generalizing place with
  | nil => exact Or.inr rfl
  | cons segment rest ih =>
      cases segment with
      | here => exact ih place
      | up => exact ih place.dropLast
      | name name =>
          simp only [Tree.walk]
          rcases sub (place ++ [name]) with gone | found
          · rw [gone]
            exact Or.inl rfl
          · rw [found]
            split
            · exact Or.inl rfl
            · exact ih (place ++ [name])
            · exact Or.inr rfl
            · exact jumps _ _ _

/-- In a tree from which something was taken a way comes to the same place or stops at
what is missing. -/
theorem Sub.trace (sub : tree.Sub other) (limit : Nat) (place : Place α)
    (way : List (Segment α)) :
    SameOrMissing (tree.trace false limit place way) (other.trace false limit place way) := by
  induction limit generalizing place way with
  | zero => exact sub.walk (fun _ _ _ => Or.inr rfl) place way
  | succ limit ih => exact sub.walk (fun place rooted way => ih _ way) place way

theorem Sub.follow (sub : tree.Sub other) (limit : Nat) (place : Place α)
    (way : List (Segment α)) :
    SameOrMissing (tree.follow limit place way) (other.follow limit place way) := by
  unfold Tree.follow
  rcases sub.trace limit place way with missing | same
  · rw [missing]
    exact Or.inl rfl
  · rw [same]
    exact Or.inr rfl

theorem Sub.locate (sub : tree.Sub other) (limit : Nat) (way : List (Segment α)) :
    SameOrMissing (tree.locate limit way) (other.locate limit way) := by
  unfold Tree.locate
  split
  · next last _ =>
    rcases sub.follow limit [] way.dropLast with missing | same
    · rw [missing]
      exact Or.inl rfl
    · rw [same]
      split
      · exact Or.inr rfl
      · exact sub.goOn (Or.inr rfl)
  · exact Or.inr rfl

theorem Sub.locate_eq_ok (sub : tree.Sub other) {limit : Nat} {way : List (Segment α)}
    {place : Place α} (located : tree.locate limit way = .ok place) :
    other.locate limit way = .ok place := by
  rcases sub.locate limit way with missing | same
  · cases missing.symm.trans located
  · exact same.symm.trans located

theorem Sub.follow_eq_ok (sub : tree.Sub other) {limit : Nat} {start final : Place α}
    {way : List (Segment α)} (followed : tree.follow limit start way = .ok final) :
    other.follow limit start way = .ok final := by
  rcases sub.follow limit start way with missing | same
  · cases missing.symm.trans followed
  · exact same.symm.trans followed

theorem Sub.any_find (sub : tree.Sub other) {place : Place α} {test : Node α → Bool}
    (found : (tree.find place).any test = true) : (other.find place).any test = true := by
  rcases sub place with gone | same
  · rw [gone] at found
    cases found
  · rw [← same]
    exact found

theorem goOn_of_dir {β : Type v} {place : Place α} {next : Except Stop β}
    (isDir : tree.find place = some .dir) : tree.goOn place next = next := by
  rw [goOn, isDir]

theorem eq_of_goOn {β : Type v} {place : Place α} {next : Except Stop β} {final : β}
    (went : tree.goOn place next = .ok final) : next = .ok final := by
  unfold goOn at went
  split at went
  · exact went
  · cases went
  · cases went

theorem find_dropLast {place : Place α} (isDir : tree.find place = some .dir) :
    tree.find place.dropLast = some .dir := by
  by_cases root : place.dropLast = place
  · rw [root]
    exact isDir
  · apply find_of_isPrefix _ (List.dropLast_prefix place) root
    rw [isDir]
    exact Option.some_ne_none _

/-- A way that goes on goes on from where its first part comes to. -/
theorem walk_append {left : Nat}
    {jump : Place α → Bool → List (Segment α) → Except Stop (Place α × Nat)}
    {further : Place α × Nat → Except Stop (Place α × Nat)} {more : List (Segment α)}
    (goes : more ≠ [])
    (ends : ∀ place, tree.find place = some .dir →
      tree.walk false left jump place more = further (place, left))
    (jumps : ∀ place rooted way, tree.find place = some .dir →
      jump place rooted (way ++ more) = (jump place rooted way).bind fun reached =>
        tree.goOn reached.1 (further reached))
    {start : Place α} (isDir : tree.find start = some .dir) (way : List (Segment α)) :
    tree.walk false left jump start (way ++ more) =
      (tree.walk false left jump start way).bind fun reached =>
        tree.goOn reached.1 (further reached) := by
  induction way generalizing start with
  | nil =>
      rw [List.nil_append, ends start isDir]
      exact (goOn_of_dir isDir).symm
  | cons segment rest ih =>
      cases segment with
      | here => exact ih isDir
      | up => exact ih (find_dropLast isDir)
      | name name =>
          simp only [List.cons_append, walk]
          split
          · rfl
          · next isDir => exact ih isDir
          · next isFile =>
            have nonempty : (rest ++ more).isEmpty = false := by
              rw [Bool.eq_false_iff, Ne, List.isEmpty_iff]
              exact List.append_ne_nil_of_right_ne_nil rest goes
            rw [nonempty]
            by_cases last : rest.isEmpty = true
            · simp only [last, if_true, Except.bind, goOn, isFile]
              rfl
            · rw [if_neg last]
              rfl
          · next rooted way _ =>
            rw [← List.append_assoc]
            exact jumps start rooted (way ++ rest) isDir

theorem trace_append {limit : Nat} {start : Place α} (isDir : tree.find start = some .dir)
    (way : List (Segment α)) {more : List (Segment α)} (goes : more ≠ []) :
    tree.trace false limit start (way ++ more) =
      (tree.trace false limit start way).bind fun reached =>
        tree.goOn reached.1 (tree.trace false reached.2 reached.1 more) := by
  induction limit generalizing start way with
  | zero =>
      apply walk_append goes _ _ isDir
      · intro place _
        rfl
      · intro place rooted way _
        rfl
  | succ limit ih =>
      apply walk_append goes _ _ isDir
      · intro place _
        rfl
      · intro place rooted way isDir
        apply ih
        split
        · exact find_root tree
        · exact isDir

/-- A way with one more name goes on from where the way comes to. -/
theorem follow_concat {limit : Nat} {start : Place α} (isDir : tree.find start = some .dir)
    (way : List (Segment α)) (last : α) :
    tree.follow limit start (way ++ [.name last]) =
      (tree.trace false limit start way).bind fun reached =>
        tree.goOn reached.1 (tree.follow reached.2 reached.1 [.name last]) := by
  unfold follow
  rw [trace_append isDir way (List.cons_ne_nil _ _)]
  cases tree.trace false limit start way with
  | error stop => rfl
  | ok reached =>
      simp only [Except.bind, goOn]
      split <;> rfl

theorem exists_trace_of_follow {limit : Nat} {start final : Place α} {way : List (Segment α)}
    (followed : tree.follow limit start way = .ok final) :
    ∃ left, tree.trace false limit start way = .ok (final, left) := by
  unfold follow at followed
  cases traced : tree.trace false limit start way with
  | error stop =>
      rw [traced] at followed
      cases followed
  | ok reached =>
      rw [traced] at followed
      cases followed
      exact ⟨reached.2, rfl⟩

theorem follow_of_trace {limit left : Nat} {start final : Place α} {way : List (Segment α)}
    (traced : tree.trace false limit start way = .ok (final, left)) :
    tree.follow limit start way = .ok final := by
  rw [follow, traced]
  rfl

theorem follow_of_trace_error {limit : Nat} {start : Place α} {way : List (Segment α)}
    {stop : Stop} (traced : tree.trace false limit start way = .error stop) :
    tree.follow limit start way = .error stop := by
  rw [follow, traced]
  rfl

/-- A name at which there is no link is where it is. -/
theorem follow_name {limit : Nat} {start : Place α} {name : α}
    (found : tree.find (start ++ [name]) = some .dir ∨
      tree.find (start ++ [name]) = some .file) :
    tree.follow limit start [.name name] = .ok (start ++ [name]) := by
  unfold follow
  rcases found with isDir | isFile
  · cases limit <;> simp only [trace, walk, isDir] <;> rfl
  · cases limit <;> simp only [trace, walk, isFile] <;> rfl

/-- Names at which there is no link are gone down. -/
theorem eq_append_of_follow_names {limit : Nat} {start final : Place α} {names : List α}
    (linkless : ∀ front, front <+: names → front ≠ [] → ∀ rooted way,
      tree.find (start ++ front) ≠ some (.link rooted way))
    (followed : tree.follow limit start (names.map .name) = .ok final) :
    final = start ++ names := by
  induction names generalizing start with
  | nil =>
      obtain ⟨left, traced⟩ := exists_trace_of_follow followed
      cases limit <;> cases traced <;> simp
  | cons name rest ih =>
      obtain ⟨left, traced⟩ := exists_trace_of_follow followed
      have first := linkless [name] ⟨rest, rfl⟩ (List.cons_ne_nil _ _)
      cases found : tree.find (start ++ [name]) with
      | none => cases limit <;> simp [trace, walk, found] at traced
      | some node =>
          cases node with
          | link rooted way => exact absurd found (first rooted way)
          | file =>
              cases rest with
              | nil =>
                  rw [List.map_singleton, follow_name (Or.inr found)] at followed
                  exact (Except.ok.inj followed).symm
              | cons other others => cases limit <;> simp [trace, walk, found] at traced
          | dir =>
              have further : tree.trace false limit (start ++ [name]) (rest.map .name)
                  = .ok (final, left) := by
                rw [← traced]
                cases limit <;> simp only [List.map_cons, trace, walk, found]
              have deeper : ∀ front, front <+: rest → front ≠ [] → ∀ rooted way,
                  tree.find (start ++ [name] ++ front) ≠ some (.link rooted way) := by
                intro front leads _
                rw [List.append_assoc]
                exact linkless (name :: front) (List.cons_prefix_cons.mpr ⟨rfl, leads⟩)
                  (List.cons_ne_nil _ _)
              rw [ih deeper (follow_of_trace further), List.append_assoc]
              rfl

theorem find_ne_none_of_follow {limit : Nat} {start final : Place α} {name : α}
    (followed : tree.follow limit start [.name name] = .ok final) :
    tree.find (start ++ [name]) ≠ none := by
  intro gone
  unfold follow at followed
  cases limit <;> simp only [trace, walk, gone] at followed <;> cases followed

/-- Where a way is followed to its end there is something at its last name. -/
theorem exists_locate_of_follow {limit : Nat} {way : List (Segment α)} {last : α}
    {final : Place α} (isLast : way.getLast? = some (.name last))
    (followed : tree.follow limit [] way = .ok final) :
    ∃ place, tree.locate limit way = .ok place ∧ tree.find place ≠ none := by
  have split : way = way.dropLast ++ [.name last] := (List.dropLast_append_getLast? _ isLast).symm
  rw [split, follow_concat (find_root tree)] at followed
  cases parentEq : tree.trace false limit [] way.dropLast with
  | error stop =>
      rw [parentEq] at followed
      cases followed
  | ok reached =>
      rw [parentEq] at followed
      cases found : tree.find reached.1 with
      | none =>
          simp only [Except.bind, goOn, found] at followed
          cases followed
      | some node =>
          cases node with
          | dir =>
              refine ⟨reached.1 ++ [last], ?_, ?_⟩
              · simp only [locate, isLast, follow_of_trace parentEq, goOn, found]
              · simp only [Except.bind, goOn, found] at followed
                exact find_ne_none_of_follow followed
          | file | link =>
              simp only [Except.bind, goOn, found] at followed
              cases followed

/-- A way comes to what its last name is at, or passes through a link there. -/
theorem eq_or_link_of_locate {limit : Nat} {way : List (Segment α)} {place final : Place α}
    (located : tree.locate limit way = .ok place)
    (followed : tree.follow limit [] way = .ok final) :
    final = place ∨ ∃ rooted target, tree.find place = some (.link rooted target) := by
  unfold Tree.locate at located
  split at located
  · next last isLast =>
    have split : way = way.dropLast ++ [.name last] :=
      (List.dropLast_append_getLast? _ isLast).symm
    rw [split, follow_concat (find_root tree)] at followed
    cases parentEq : tree.trace false limit [] way.dropLast with
    | error stop =>
        rw [follow_of_trace_error parentEq] at located
        cases located
    | ok reached =>
        simp only [parentEq, follow_of_trace parentEq, Except.bind] at located followed
        unfold Tree.goOn at located followed
        cases found : tree.find reached.1 with
        | none =>
            simp only [found] at located
            cases located
        | some node =>
            cases node with
            | file | link =>
                simp only [found] at located
                cases located
            | dir =>
                simp only [found] at located followed
                cases located
                cases here : tree.find (reached.1 ++ [last]) with
                | none => exact absurd here (find_ne_none_of_follow followed)
                | some node =>
                    cases node with
                    | link rooted target => exact Or.inr ⟨rooted, target, rfl⟩
                    | dir =>
                        rw [follow_name (Or.inl here)] at followed
                        exact Or.inl (Except.ok.inj followed).symm
                    | file =>
                        rw [follow_name (Or.inr here)] at followed
                        exact Or.inl (Except.ok.inj followed).symm
  · cases located

theorem exists_last_of_locate {limit : Nat} {way : List (Segment α)} {place : Place α}
    (located : tree.locate limit way = .ok place) : ∃ last, way.getLast? = some (.name last) := by
  unfold Tree.locate at located
  split at located
  · next last isLast => exact ⟨last, isLast⟩
  · cases located

/-- What is located lies in the directory that the rest of the way leads to. -/
theorem exists_parent_of_locate {limit : Nat} {way : List (Segment α)} {place : Place α}
    (located : tree.locate limit way = .ok place) :
    ∃ parent last, tree.follow limit [] way.dropLast = .ok parent ∧
      tree.find parent = some .dir ∧ place = parent ++ [last] := by
  unfold Tree.locate at located
  split at located
  · next last isLast =>
    cases followed : tree.follow limit [] way.dropLast with
    | error stop =>
        rw [followed] at located
        cases located
    | ok parent =>
        rw [followed] at located
        dsimp only [goOn] at located
        split at located
        · next isDir =>
          cases located
          exact ⟨parent, last, rfl, isDir, rfl⟩
        · cases located
        · cases located
  · cases located

/-- What is located is not the root. -/
theorem ne_nil_of_locate {limit : Nat} {way : List (Segment α)} {place : Place α}
    (located : tree.locate limit way = .ok place) : place ≠ [] := by
  rcases exists_parent_of_locate located with ⟨parent, last, -, -, rfl⟩
  exact List.concat_ne_nil last parent

end Tree

end ClotoCore.Links
