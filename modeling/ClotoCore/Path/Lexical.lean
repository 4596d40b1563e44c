import Mathlib.Data.List.Infix

/-!
# Lexical paths

A cleaned path climbs some number of directories, unless it is rooted, and then
descends along names.  Joining, cleaning and relating paths only count and
compare; containment of one path in another is a prefix of names under the same
climb.
-/

namespace ClotoCore.Lexical

universe u

variable {α : Type u}

/-- What stands between two separators. -/
inductive Segment (α : Type u) where
  /-- An empty segment, or the directory itself. -/
  | here
  | up
  | name (name : α)
  deriving DecidableEq

/-- A cleaned path. -/
@[ext]
structure Path (α : Type u) where
  rooted : Bool
  /-- How many directories the path climbs before it descends. -/
  ups : Nat
  names : List α
  /-- There is nothing above the root. -/
  grounded : rooted = true → ups = 0
  deriving DecidableEq

/-- The root, or the directory paths are relative to. -/
def Path.start (rooted : Bool) : Path α where
  rooted := rooted
  ups := 0
  names := []
  grounded _ := rfl

/-- Go down along names. -/
def Path.descend (path : Path α) (names : List α) : Path α :=
  { path with names := path.names ++ names }

/-- Follow one segment. -/
def Path.follow (path : Path α) : Segment α → Path α
  | .here => path
  | .name name => path.descend [name]
  | .up =>
      match path.names with
      | _ :: _ => { path with names := path.names.dropLast }
      | [] =>
          if rooted : path.rooted = true then path
          else { path with ups := path.ups + 1, grounded := fun same => absurd same rooted }

/-- Follow segments and clean what results. -/
def Path.join (path : Path α) (segments : List (Segment α)) : Path α :=
  segments.foldl Path.follow path

/-- The segments of a cleaned path. -/
def Path.segments (path : Path α) : List (Segment α) :=
  List.replicate path.ups .up ++ path.names.map .name

/-- The last name. -/
def Path.base? (path : Path α) : Option α :=
  path.names.getLast?

/-- The path without its last name. -/
def Path.dir (path : Path α) : Path α :=
  { path with names := path.names.dropLast }

@[simp]
theorem Path.join_nil (path : Path α) : path.join [] = path :=
  rfl

theorem Path.join_append (path : Path α) (first second : List (Segment α)) :
    path.join (first ++ second) = (path.join first).join second :=
  List.foldl_append

@[simp]
theorem Path.descend_nil (path : Path α) : path.descend [] = path := by
  simp [Path.descend]

theorem Path.descend_append (path : Path α) (first second : List α) :
    path.descend (first ++ second) = (path.descend first).descend second := by
  simp [Path.descend]

/-- Names are followed by going down. -/
theorem Path.join_names (path : Path α) (names : List α) :
    path.join (names.map .name) = path.descend names := by
  induction names generalizing path with
  | nil => simp
  | cons name rest ih =>
      have stepped : path.join ((name :: rest).map .name)
          = (path.descend [name]).join (rest.map .name) := rfl
      rw [stepped, ih, ← Path.descend_append, List.singleton_append]

theorem Path.segments_descend (path : Path α) (names : List α) :
    (path.descend names).segments = path.segments ++ names.map .name := by
  simp [Path.segments, Path.descend]

/-- Nothing that is followed leaves the root. -/
theorem Path.rooted_join (path : Path α) (segments : List (Segment α)) :
    (path.join segments).rooted = path.rooted := by
  induction segments generalizing path with
  | nil => rfl
  | cons segment rest ih =>
      have stepped : path.join (segment :: rest) = (path.follow segment).join rest := rfl
      rw [stepped, ih]
      cases segment with
      | here => rfl
      | name name => rfl
      | up =>
          simp only [Path.follow]
          split
          · rfl
          · split <;> rfl

/-! ## Containment -/

/-- The path is the root or lies under it. -/
def Path.Within (root path : Path α) : Prop :=
  path.rooted = root.rooted ∧ path.ups = root.ups ∧ root.names <+: path.names

instance [DecidableEq α] (root path : Path α) : Decidable (root.Within path) :=
  inferInstanceAs (Decidable (_ ∧ _ ∧ _))

theorem Path.within_iff {root path : Path α} :
    root.Within path ↔ ∃ names, path = root.descend names := by
  constructor
  · rintro ⟨rootedEq, upsEq, names, namesEq⟩
    exact ⟨names, Path.ext rootedEq upsEq namesEq.symm⟩
  · rintro ⟨names, rfl⟩
    exact ⟨rfl, rfl, names, rfl⟩

theorem Path.within_descend (root : Path α) (names : List α) : root.Within (root.descend names) :=
  Path.within_iff.mpr ⟨names, rfl⟩

theorem Path.within_refl (root : Path α) : root.Within root :=
  ⟨rfl, rfl, List.prefix_rfl⟩

theorem Path.Within.trans {root middle path : Path α} (outer : root.Within middle)
    (inner : middle.Within path) : root.Within path :=
  ⟨inner.1.trans outer.1, inner.2.1.trans outer.2.1, outer.2.2.trans inner.2.2⟩

/-- Two paths with a common descendant lie on one line. -/
theorem Path.Within.total {left right path : Path α} (first : left.Within path)
    (second : right.Within path) : left.Within right ∨ right.Within left := by
  rcases List.prefix_or_prefix_of_prefix first.2.2 second.2.2 with shorter | longer
  · exact Or.inl ⟨second.1.symm.trans first.1, second.2.1.symm.trans first.2.1, shorter⟩
  · exact Or.inr ⟨first.1.symm.trans second.1, first.2.1.symm.trans second.2.1, longer⟩

/-- What is followed without going up stays inside. -/
theorem Path.within_join {root : Path α} {segments : List (Segment α)}
    (plain : Segment.up ∉ segments) : root.Within (root.join segments) := by
  induction segments generalizing root with
  | nil => exact root.within_refl
  | cons segment rest ih =>
      have restPlain : Segment.up ∉ rest := fun mem => plain (List.mem_cons_of_mem _ mem)
      have stepped : root.Within (root.follow segment) := by
        cases segment with
        | here => exact root.within_refl
        | up => exact absurd List.mem_cons_self plain
        | name name => exact root.within_descend [name]
      exact stepped.trans (ih restPlain)

/-- Following segments never takes back a climb. -/
theorem Path.ups_le_join (path : Path α) (segments : List (Segment α)) :
    path.ups ≤ (path.join segments).ups := by
  induction segments generalizing path with
  | nil => exact Nat.le_refl _
  | cons segment rest ih =>
      have stepped : path.ups ≤ (path.follow segment).ups := by
        cases segment with
        | here => exact Nat.le_refl _
        | name name => exact Nat.le_refl _
        | up =>
            simp only [Path.follow]
            split
            · exact Nat.le_refl _
            · split
              · exact Nat.le_refl _
              · exact Nat.le_succ _
      exact stepped.trans (ih _)

/-- Segments that never climb above where they start name the same way down
from every path. -/
theorem Path.join_descend {root way : Path α} (floating : way.rooted = false)
    {segments : List (Segment α)} (stays : (way.join segments).ups = 0) :
    (root.descend way.names).join segments = root.descend (way.join segments).names := by
  induction segments generalizing way with
  | nil => rfl
  | cons segment rest ih =>
      have stepped : way.join (segment :: rest) = (way.follow segment).join rest := rfl
      have followed : (root.descend way.names).follow segment =
          root.descend (way.follow segment).names := by
        cases segment with
        | here => rfl
        | name name => exact (root.descend_append way.names [name]).symm
        | up =>
            cases names : way.names with
            | nil =>
                -- One climb more is never taken back.
                have climbed : (way.follow .up).ups = way.ups + 1 := by
                  simp [Path.follow, names, floating]
                rw [stepped] at stays
                have kept := (way.follow .up).ups_le_join rest
                omega
            | cons first others =>
                have nonempty : way.names ≠ [] := by simp [names]
                cases outer : root.names ++ way.names with
                | nil => simp [names] at outer
                | cons head tail =>
                    have shorter : (head :: tail).dropLast = root.names ++ way.names.dropLast := by
                      rw [← outer, List.dropLast_append_of_ne_nil nonempty]
                    simp only [names] at outer shorter
                    simp only [Path.follow, Path.descend, names, outer, shorter]
      have stillFloating : (way.follow segment).rooted = false := by
        have same := way.rooted_join [segment]
        exact same.trans floating
      calc
        (root.descend way.names).join (segment :: rest)
            = ((root.descend way.names).follow segment).join rest := rfl
        _ = (root.descend (way.follow segment).names).join rest := by rw [followed]
        _ = root.descend ((way.follow segment).join rest).names := ih stillFloating stays
        _ = root.descend (way.join (segment :: rest)).names := rfl

/-- Segments that never climb above where they start lead inside every path. -/
theorem Path.within_join_of_ups_eq_zero (root : Path α) {segments : List (Segment α)}
    (stays : ((Path.start false).join segments).ups = 0) : root.Within (root.join segments) := by
  have descended : (root.descend (Path.start false : Path α).names).join segments =
      root.descend ((Path.start false).join segments).names := Path.join_descend rfl stays
  have started : root.descend (Path.start false : Path α).names = root := root.descend_nil
  rw [started] at descended
  rw [descended]
  exact root.within_descend _

/-- The path lies under the root and is not the root. -/
def Path.StrictlyWithin (root path : Path α) : Prop :=
  root.Within path ∧ path ≠ root

theorem Path.strictlyWithin_descend_cons (root : Path α) (name : α) (names : List α) :
    root.StrictlyWithin (root.descend (name :: names)) := by
  constructor
  · exact root.within_descend _
  · intro same
    have lengths := congrArg (fun path : Path α => path.names.length) same
    simp [Path.descend] at lengths

theorem Path.dir_within (path : Path α) : path.dir.Within path :=
  ⟨rfl, rfl, path.names.dropLast_prefix⟩

/-- The directory of a path under a root contains that root, or lies under it. -/
theorem Path.Within.dir {root path : Path α} (within : root.Within path) :
    path.dir.Within root ∨ root.Within path.dir :=
  path.dir_within.total within

/-- The paths from the outermost name down to the path itself. -/
def Path.lineage (path : Path α) : List (Path α) :=
  path.names.inits.tail.map fun names => { path with names := names }

theorem Path.within_of_mem_lineage {path ancestor : Path α} (mem : ancestor ∈ path.lineage) :
    ancestor.Within path := by
  rcases List.mem_map.mp mem with ⟨names, initial, rfl⟩
  exact ⟨rfl, rfl, (List.mem_inits _ _).mp (List.mem_of_mem_tail initial)⟩

theorem Path.mem_lineage {path : Path α} (named : path.names ≠ []) : path ∈ path.lineage := by
  apply List.mem_map.mpr
  refine ⟨path.names, ?_, rfl⟩
  rcases List.exists_cons_of_ne_nil named with ⟨name, rest, namesEq⟩
  rw [namesEq, List.inits, List.tail_cons]
  exact List.mem_map_of_mem ((List.mem_inits _ _).mpr List.prefix_rfl)

/-! ## Relating one path to another -/

section Relative

variable [DecidableEq α]

/-- The way from one list of segments to another, unless it would have to name
what is above the first. -/
def relSegments : List (Segment α) → List (Segment α) → Option (List (Segment α))
  | [], target => some target
  | base, [] => if base.head? = some .up then none else some (List.replicate base.length .up)
  | first :: base, second :: target =>
      if first = second then relSegments base target
      else if first = .up then none
      else some (List.replicate (base.length + 1) .up ++ second :: target)

/-- The way from one path to another. -/
def Path.rel (base target : Path α) : Option (List (Segment α)) :=
  if base.rooted = target.rooted then relSegments base.segments target.segments else none

/-- The way goes up before it goes down. -/
def Leaves (way : List (Segment α)) : Prop :=
  way.head? = some .up

instance (way : List (Segment α)) : Decidable (Leaves way) :=
  inferInstanceAs (Decidable (_ = _))

/-- A way that does not go up follows names only. -/
theorem relSegments_names {names target : List α} :
    (∃ way, relSegments (names.map Segment.name) (target.map .name) = some way ∧ ¬Leaves way) ↔
      names <+: target := by
  induction names generalizing target with
  | nil =>
      simp only [List.map_nil, relSegments, List.nil_prefix, iff_true]
      refine ⟨_, rfl, ?_⟩
      cases target <;> simp [Leaves]
  | cons name rest ih =>
      cases target with
      | nil => simp [relSegments, Leaves, List.replicate_succ]
      | cons other others =>
          by_cases same : name = other
          · simp only [List.map_cons, relSegments, same, if_true, ih, List.cons_prefix_cons,
              true_and]
          · have differ : Segment.name name ≠ Segment.name other := by simp [same]
            simp [relSegments, differ, Leaves, List.replicate_succ, same, List.cons_prefix_cons]

/-- Exactly the paths under a root are reached from it without going up. -/
theorem Path.within_iff_rel {root path : Path α} :
    root.Within path ↔ ∃ way, root.rel path = some way ∧ ¬Leaves way := by
  rw [Path.Within, Path.rel]
  by_cases rootedEq : root.rooted = path.rooted
  · simp only [rootedEq, true_and, if_true, Path.segments]
    generalize root.ups = rootUps
    generalize path.ups = pathUps
    induction rootUps generalizing pathUps with
    | zero =>
        cases pathUps with
        | zero => simp [relSegments_names]
        | succ ups =>
            simp only [Nat.add_one_ne_zero, false_and, List.replicate_zero, List.nil_append,
              List.replicate_succ, List.cons_append, false_iff, not_exists, not_and, not_not]
            intro way related
            cases names : root.names with
            | nil =>
                simp only [names, List.map_nil, relSegments, Option.some.injEq] at related
                simp [← related, Leaves]
            | cons name rest =>
                simp [names, relSegments] at related
                simp [← related, Leaves, List.replicate_succ]
    | succ ups ih =>
        cases pathUps with
        | zero =>
            simp only [(Nat.succ_ne_zero ups).symm, false_and, List.replicate_zero, List.nil_append,
              List.replicate_succ, List.cons_append, false_iff, not_exists, not_and, not_not]
            intro way related
            cases names : path.names <;> simp [names, relSegments] at related
        | succ more =>
            simp only [Nat.add_right_cancel_iff, List.replicate_succ, List.cons_append, relSegments,
              if_true]
            exact ih more
  · simp [rootedEq, Ne.symm rootedEq]

end Relative

end ClotoCore.Lexical
