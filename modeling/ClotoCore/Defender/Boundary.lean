import ClotoCore.Defender.Execute
import ClotoCore.Transition.Run

/-!
# What an executed plan touches

The executor compares a path with the roots as it is written, and the system follows the
links on its way.  A path that lies in a root as it is written is removed in the root if no
link stands between the two, and alone if it does not end past a link at its last name.
What a link leads to and the file of the service are held by no check.
-/

namespace ClotoCore.Defender

open ClotoCore.Encoding ClotoCore.Links ClotoCore.Transition

/-- One entry of an execution, with how its removal fails, if it does. -/
def executeStep (platform : Platform) (roots : List PathBuf) (tier : PurgeTier) :
    Action Machine (PurgeEntry × Option (Region Name)) :=
  fun machine step => some (executeEntry platform roots tier machine step.1 step.2).1

/-- The places that the roots have and lead to. -/
def rootPlaces (platform : Platform) (roots : List PathBuf) (tree : Links.Tree Name) :
    List (Place Name) :=
  roots.flatMap fun root =>
    (tree.locate platform.limit (root.way platform.os)).toOption.toList ++
      (tree.follow platform.limit [] (root.way platform.os)).toOption.toList

/-- The place of an entry's path, once the links of its parent directories are followed. -/
def ownPlace (platform : Platform) (tree : Links.Tree Name) (entry : PurgeEntry) :
    Option (Place Name) :=
  entry.path.bind fun path => (tree.locate platform.limit (path.way platform.os)).toOption

/-- A place is a root or lies under one. -/
def Inside (platform : Platform) (roots : List PathBuf) (tree : Links.Tree Name)
    (place : Place Name) : Prop :=
  ∃ root ∈ rootPlaces platform roots tree, root <+: place

/-- A place is that of an entry, or lies under it. -/
def Under (platform : Platform) (tree : Links.Tree Name) (entry : PurgeEntry) (place : Place Name) :
    Prop :=
  ∃ own ∈ ownPlace platform tree entry, own <+: place

/-- A place is listed as a file or a directory of a tier that the plan declares. -/
def Listed (platform : Platform) (plan : PurgePlan) (tree : Links.Tree Name) (place : Place Name) :
    Prop :=
  ∃ entry ∈ plan.entries, plan.tier.includes entry.tier = true ∧ entry.kind.onDisk = true ∧
    Under platform tree entry place

/-- What an entry removes is in a root and listed, and a path does not remove what a link
at the path leads to. -/
def Confines (platform : Platform) (roots : List PathBuf) (plan : PurgePlan) (machine : Machine)
    (step : PurgeEntry × Option (Region Name)) : Prop :=
  ∀ place, machine.tree.find place ≠ none →
    (executeEntry platform roots plan.tier machine step.1 step.2).1.tree.find place = none →
      Inside platform roots machine.tree place ∧ Listed platform plan machine.tree place ∧
        (step.1.kind.onDisk = true → Under platform machine.tree step.1 place)

/-- What is taken away first of a spot: its place, or each thing in it. -/
def Heads (spot : Spot Name) (place : Place Name) : Prop :=
  if spot.whole then place = spot.place else ∃ name, place = spot.place ++ [name]

/-- Where an entry leads to is in a root, and it is the place of the entry's own path or,
for the service, of a path that is listed. -/
def StaysIn (platform : Platform) (roots : List PathBuf) (plan : PurgePlan) (machine : Machine)
    (entry : PurgeEntry) : Prop :=
  ∀ spot, target platform roots plan.tier machine.tree entry = some spot →
    ∀ place, machine.tree.find place ≠ none → Heads spot place →
      Inside platform roots machine.tree place ∧
        if entry.kind.onDisk then Under platform machine.tree entry place
        else Listed platform plan machine.tree place

/-- A link stands between a root and the last name of a path that goes on from it. -/
def LinkBelow (platform : Platform) (tree : Links.Tree Name) (root path : PathBuf) : Prop :=
  ∃ base, tree.follow platform.limit [] (root.way platform.os) = .ok base ∧
    ∃ front back, path.way platform.os = root.way platform.os ++ front.map .name ++ back ∧
      front ≠ [] ∧ back ≠ [] ∧ ∃ rooted way, tree.find (base ++ front) = some (.link rooted way)

/-- A path goes on after its last name, and a link is there. -/
def EndsAtLink (platform : Platform) (tree : Links.Tree Name) (path : PathBuf) : Prop :=
  platform.os ≠ .windows ∧ path.ending ≠ .nothing ∧
    ∃ place, tree.locate platform.limit (path.way platform.os) = .ok place ∧
      ∃ rooted way, tree.find place = some (.link rooted way)

/-- Something is at a place that goes first when a path is removed. -/
def TakenAt (platform : Platform) (tree : Links.Tree Name) (kind : PurgeKind) (path : PathBuf)
    (place : Place Name) : Prop :=
  ∃ spot, pathTarget platform tree path kind = some spot ∧ tree.find place ≠ none ∧ Heads spot place

/-- No link leads a path out of the root that it is written in, and none at its last name
is passed, unless what goes there is in a root all the same, or is that link. -/
structure Straight (platform : Platform) (roots : List PathBuf) (tree : Links.Tree Name)
    (kind : PurgeKind) (root path : PathBuf) : Prop where
  below : LinkBelow platform tree root path →
    ∀ place, TakenAt platform tree kind path place → Inside platform roots tree place
  last : EndsAtLink platform tree path → ∀ place, TakenAt platform tree kind path place →
    tree.locate platform.limit (path.way platform.os) = .ok place

/-- The file that registers the service is at a place. -/
def UnitAt (platform : Platform) (tree : Links.Tree Name) (place : Place Name) : Prop :=
  ∃ unit ∈ platform.unitFile, unitTarget platform tree unit = some ⟨place, true⟩

/-- The path of an entry is straight from each root that it is written in, and the file
that a service entry deregisters, if it is there, is in a root and listed. -/
structure Guided (platform : Platform) (roots : List PathBuf) (plan : PurgePlan)
    (machine : Machine) (entry : PurgeEntry) : Prop where
  path : plan.tier.includes entry.tier = true → entry.kind.onDisk = true →
    ∀ path, checkedPath platform.os entry.path = .ok path →
      ∀ root ∈ roots, isWithin platform.os root path = true →
        Straight platform roots machine.tree entry.kind root path
  unit : plan.tier.includes entry.tier = true → entry.kind = .service →
    ∀ name ∈ entry.name, isBlank name = false →
      ∀ place, UnitAt platform machine.tree place →
        Inside platform roots machine.tree place ∧ Listed platform plan machine.tree place

variable {platform : Platform} {roots : List PathBuf} {plan : PurgePlan} {tree : Links.Tree Name}
  {machine : Machine} {entry : PurgeEntry} {fault : Option (Region Name)} {spot : Spot Name}
  {place below : Place Name} {root path : PathBuf} {kind : PurgeKind}

theorem Inside.onward (inside : Inside platform roots tree place) (leads : place <+: below) :
    Inside platform roots tree below := by
  rcases inside with ⟨root, mem, around⟩
  exact ⟨root, mem, around.trans leads⟩

theorem Under.onward (under : Under platform tree entry place) (leads : place <+: below) :
    Under platform tree entry below := by
  rcases under with ⟨own, isOwn, around⟩
  exact ⟨own, isOwn, around.trans leads⟩

theorem Listed.onward (listed : Listed platform plan tree place) (leads : place <+: below) :
    Listed platform plan tree below := by
  rcases listed with ⟨entry, mem, included, isDisk, under⟩
  exact ⟨entry, mem, included, isDisk, under.onward leads⟩

/-- What a spot takes away lies under what it takes away first. -/
theorem exists_heads (holds : spot.region.holds place = true) :
    ∃ top, Heads spot top ∧ top <+: place := by
  rcases Spot.holds_iff.mp holds with ⟨-, leads, wholeOrBelow⟩
  by_cases whole : spot.whole = true
  · refine ⟨spot.place, ?_, leads⟩
    rw [Heads, if_pos whole]
  · rcases leads with ⟨names, rfl⟩
    cases names with
    | nil =>
        rcases wholeOrBelow with isWhole | differs
        · exact absurd isWhole whole
        · exact absurd (List.append_nil _) differs
    | cons name names =>
        refine ⟨spot.place ++ [name], ?_, ⟨names, by simp⟩⟩
        rw [Heads, if_neg whole]
        exact ⟨name, rfl⟩

/-- What an entry takes away is taken by its target. -/
theorem target_of_gone (there : machine.tree.find place ≠ none)
    (gone : (executeEntry platform roots plan.tier machine entry fault).1.tree.find place = none) :
    ∃ spot, target platform roots plan.tier machine.tree entry = some spot ∧
      spot.region.holds place = true := by
  rw [executeEntry_tree] at gone
  by_cases taken : takes (target platform roots plan.tier) machine.tree entry place = true
  · exact takes_iff.mp taken
  · rw [find_clear_of_not_takes targets_target (Tree.Sub.refl _) taken] at gone
    exact absurd gone there

theorem ne_nil_of_target (isTarget : target platform roots plan.tier tree entry = some spot)
    (whole : spot.whole = true) : spot.place ≠ [] := by
  rcases (target_cases isTarget).2 with ⟨-, path, -, isPath⟩ | ⟨-, unit, -, isUnit⟩
  · exact ne_nil_of_reach (pathTarget_eq_some_iff.mp isPath).1 whole
  · exact Tree.ne_nil_of_locate (unitTarget_eq_some_iff.mp isUnit).2.1

/-- What a target takes away first it takes away. -/
theorem Heads.holds (isTarget : target platform roots plan.tier tree entry = some spot)
    (heads : Heads spot place) : spot.region.holds place = true := by
  apply Spot.holds_iff.mpr
  unfold Heads at heads
  split at heads
  · next whole =>
    subst heads
    exact ⟨ne_nil_of_target isTarget whole, List.prefix_refl _, Or.inl whole⟩
  · rcases heads with ⟨name, rfl⟩
    refine ⟨by simp, List.prefix_append _ _, Or.inr ?_⟩
    intro same
    have lengths := congrArg List.length same
    simp at lengths

/-- An entry that leads into the roots removes nothing else, however its removal fails. -/
theorem StaysIn.confines (stays : StaysIn platform roots plan machine entry)
    (mem : entry ∈ plan.entries) : Confines platform roots plan machine (entry, fault) := by
  intro place there gone
  rcases target_of_gone there gone with ⟨spot, isTarget, holds⟩
  rcases exists_heads holds with ⟨top, heads, leads⟩
  rcases stays spot isTarget top (Tree.find_ne_none_of_prefix there leads) heads with
    ⟨inside, listed⟩
  by_cases isDisk : entry.kind.onDisk = true
  · rw [if_pos isDisk] at listed
    have under := listed.onward leads
    exact ⟨inside.onward leads, ⟨entry, mem, (target_cases isTarget).1, isDisk, under⟩,
      fun _ => under⟩
  · rw [if_neg isDisk] at listed
    exact ⟨inside.onward leads, listed.onward leads, fun onDisk => absurd onDisk isDisk⟩

/-- An entry whose removal does not fail removes nothing else only if it leads into the
roots. -/
theorem Confines.staysIn (confines : Confines platform roots plan machine (entry, none)) :
    StaysIn platform roots plan machine entry := by
  intro spot isTarget place there heads
  have gone : (executeEntry platform roots plan.tier machine entry none).1.tree.find place
      = none := by
    rw [executeEntry_tree]
    have noFault : loses entry.kind (target platform roots plan.tier machine.tree entry) none
        = none := by
      unfold loses
      split
      · rfl
      · rfl
    rw [noFault]
    exact find_clear isTarget (heads.holds isTarget)
  rcases confines place there gone with ⟨inside, listed, under⟩
  refine ⟨inside, ?_⟩
  split
  · next isDisk => exact under isDisk
  · exact listed

/-! ## Where a path leads -/

/-- What a straight path in a root has its last name at lies in the root. -/
theorem inside_of_isWithin (rootMem : root ∈ roots)
    (clean : .parentDir ∉ path.components) (within : isWithin platform.os root path = true)
    (straight : ¬ LinkBelow platform tree root path)
    (located : tree.locate platform.limit (path.way platform.os) = .ok place) :
    Inside platform roots tree place := by
  rcases way_of_isWithin within with ⟨more, split⟩
  have leads : ∀ base, tree.follow platform.limit [] (root.way platform.os) = .ok base →
      base <+: place → Inside platform roots tree place := by
    intro base followed around
    refine ⟨base, List.mem_flatMap.mpr ⟨root, rootMem, List.mem_append_right _ ?_⟩, around⟩
    rw [followed]
    exact List.mem_singleton_self base
  rcases List.eq_nil_or_concat' more with rfl | ⟨front, segment, rfl⟩
  · rw [List.append_nil] at split
    refine ⟨place, List.mem_flatMap.mpr ⟨root, rootMem, List.mem_append_left _ ?_⟩,
      List.prefix_refl _⟩
    rw [← split, located]
    exact List.mem_singleton_self place
  · rcases @exists_names_of_way platform.os path clean with ⟨all, isAll⟩
    rw [split] at isAll
    rcases List.append_eq_map_iff.mp isAll with ⟨-, tail, -, -, isTail⟩
    rcases List.map_eq_append_iff.mp isTail with ⟨names, -, -, rfl, -⟩
    rcases Tree.exists_parent_of_locate located with ⟨parent, last, followed, isDir, rfl⟩
    rw [split, ← List.append_assoc, List.dropLast_concat] at followed
    by_cases empty : names = []
    · subst empty
      rw [List.map_nil, List.append_nil] at followed
      exact leads parent followed (List.prefix_append _ _)
    · rcases Tree.exists_trace_of_follow followed with ⟨left, traced⟩
      rw [Tree.trace_append (Tree.find_root tree) _ (by simpa using empty)] at traced
      cases based : tree.trace false platform.limit [] (root.way platform.os) with
      | error stop =>
          rw [based] at traced
          cases traced
      | ok reached =>
          rcases reached with ⟨base, more⟩
          rw [based] at traced
          dsimp only [Except.bind] at traced
          have isBase := Tree.follow_of_trace based
          have onward := Tree.follow_of_trace (Tree.eq_of_goOn traced)
          have below : parent = base ++ names := by
            apply Tree.eq_append_of_follow_names _ onward
            intro front leading nonempty rooted way isLink
            rcases leading with ⟨rest, rfl⟩
            refine straight ⟨base, isBase, front, rest.map .name ++ [segment], ?_, nonempty,
              by simp, rooted, way, isLink⟩
            rw [split]
            simp
          apply leads base isBase
          rw [below, List.append_assoc]
          exact List.prefix_append _ _

/-- A path comes to its last name, or follows a link there where it goes on. -/
theorem exists_locate_of_reach (reached : reach platform tree path = .ok spot) :
    ∃ own, tree.locate platform.limit (path.way platform.os) = .ok own ∧
      (spot = ⟨own, true⟩ ∨ platform.os ≠ .windows ∧ path.ending ≠ .nothing ∧
        tree.follow platform.limit [] (path.way platform.os) = .ok spot.place) := by
  unfold reach at reached
  cases located : tree.locate platform.limit (path.way platform.os) with
  | error stop =>
      rw [located] at reached
      cases reached
  | ok own =>
      rw [located] at reached
      dsimp only [Except.bind] at reached
      refine ⟨own, rfl, ?_⟩
      split at reached
      · cases reached
        exact Or.inl rfl
      · next goes =>
        rw [not_or] at goes
        cases followed : tree.follow platform.limit [] (path.way platform.os) with
        | error stop =>
            rw [followed] at reached
            cases reached
        | ok final =>
            rw [followed] at reached
            cases Tree.eq_of_goOn reached
            exact Or.inr ⟨goes.1, goes.2, rfl⟩

theorem Heads.place_prefix (heads : Heads spot place) : spot.place <+: place := by
  unfold Heads at heads
  split at heads
  · rw [heads]
  · rcases heads with ⟨name, rfl⟩
    exact List.prefix_append _ _

/-- What goes first at a path lies at or under its last name, unless a link there is passed. -/
theorem TakenAt.own_prefix (taken : TakenAt platform tree kind path place)
    (ends : ¬ EndsAtLink platform tree path) :
    ∃ own, tree.locate platform.limit (path.way platform.os) = .ok own ∧ own <+: place := by
  rcases taken with ⟨spot, isTarget, -, heads⟩
  rcases exists_locate_of_reach (pathTarget_eq_some_iff.mp isTarget).1 with
    ⟨own, located, rfl | ⟨notWindows, goes, followed⟩⟩
  · exact ⟨own, located, heads.place_prefix⟩
  · refine ⟨own, located, ?_⟩
    rcases Tree.eq_or_link_of_locate located followed with same | ⟨rooted, way, isLink⟩
    · rw [← same]
      exact heads.place_prefix
    · exact absurd ⟨notWindows, goes, own, located, rooted, way, isLink⟩ ends

/-- Nothing lies under a link. -/
theorem eq_of_link_prefix {own : Place Name} {rooted : Bool} {way : List (Lexical.Segment Name)}
    (isLink : tree.find own = some (.link rooted way)) (leads : own <+: place)
    (there : tree.find place ≠ none) : own = place := by
  by_contra apart
  have isDir := Tree.find_of_isPrefix there leads apart
  rw [isLink] at isDir
  cases isDir

/-- The place of an entry's path. -/
theorem mem_ownPlace_iff {own : Place Name} (named : entry.path = some path) :
    own ∈ ownPlace platform tree entry ↔
      tree.locate platform.limit (path.way platform.os) = .ok own := by
  rw [ownPlace, named, Option.mem_def, Option.bind_some]
  cases tree.locate platform.limit (path.way platform.os) with
  | error stop => simp [Except.toOption]
  | ok located => simp [Except.toOption]

/-- What a straight path in a root removes first is in the root and under the path. -/
theorem Straight.holds (straight : Straight platform roots tree entry.kind root path)
    (checked : checkedPath platform.os entry.path = .ok path) (rootMem : root ∈ roots)
    (within : isWithin platform.os root path = true)
    (taken : TakenAt platform tree entry.kind path place) :
    Inside platform roots tree place ∧ Under platform tree entry place := by
  rcases checkedPath_eq_ok_iff.mp checked with ⟨named, -, -, -, clean⟩
  have under : ∃ own, tree.locate platform.limit (path.way platform.os) = .ok own ∧
      own <+: place := by
    by_cases ends : EndsAtLink platform tree path
    · exact ⟨place, straight.last ends place taken, List.prefix_refl _⟩
    · exact taken.own_prefix ends
  rcases under with ⟨own, located, leads⟩
  refine ⟨?_, own, (mem_ownPlace_iff named).mpr located, leads⟩
  by_cases below : LinkBelow platform tree root path
  · exact straight.below below place taken
  · exact (inside_of_isWithin rootMem clean within below located).onward leads

/-- The target of a file or directory. -/
theorem target_path_iff (isDisk : entry.kind.onDisk = true) :
    target platform roots plan.tier tree entry = some spot ↔
      plan.tier.includes entry.tier = true ∧
        ∃ path, checkedPath platform.os entry.path = .ok path ∧
          (∃ root ∈ roots, isWithin platform.os root path = true) ∧
          pathTarget platform tree path entry.kind = some spot := by
  have disk : target platform roots plan.tier tree entry
      = if plan.tier.includes entry.tier then
          (admittedPath platform.os roots entry.path).toOption.bind fun path =>
            pathTarget platform tree path entry.kind
        else none := by
    unfold target
    cases kind : entry.kind with
    | file | dir => cases admittedPath platform.os roots entry.path <;> rfl
    | service | registry =>
        rw [kind] at isDisk
        cases isDisk
  rw [disk, Option.ite_none_right_eq_some]
  refine and_congr_right fun _ => ?_
  cases admitted : admittedPath platform.os roots entry.path with
  | error reason =>
      constructor
      · intro impossible
        cases impossible
      · rintro ⟨path, checked, covered, -⟩
        cases admitted.symm.trans (admittedPath_eq_ok_iff.mpr ⟨checked, covered⟩)
  | ok path =>
      constructor
      · intro isTarget
        rcases admittedPath_eq_ok_iff.mp admitted with ⟨checked, covered⟩
        exact ⟨path, checked, covered, isTarget⟩
      · rintro ⟨other, checked, covered, isTarget⟩
        cases admitted.symm.trans (admittedPath_eq_ok_iff.mpr ⟨checked, covered⟩)
        exact isTarget

/-- The target of an entry for the service. -/
theorem target_service_iff (isService : entry.kind = .service) :
    target platform roots plan.tier tree entry = some spot ↔
      plan.tier.includes entry.tier = true ∧
        (∃ name ∈ entry.name, isBlank name = false) ∧
        ∃ unit ∈ platform.unitFile, unitTarget platform tree unit = some spot := by
  unfold target
  rw [Option.ite_none_right_eq_some, isService]
  refine and_congr_right fun _ => ?_
  dsimp only
  cases named : entry.name with
  | none => simp
  | some name =>
      by_cases blank : isBlank name = true
      · simp [Option.filter, blank]
      · simp [Option.filter, blank, Option.bind_eq_some_iff]

/-- Entries lead into the roots exactly if they are guided there. -/
theorem staysIn_iff :
    StaysIn platform roots plan machine entry ↔ Guided platform roots plan machine entry := by
  constructor
  · intro stays
    constructor
    · intro included isDisk path checked root rootMem within
      have held : ∀ place, TakenAt platform machine.tree entry.kind path place →
          Inside platform roots machine.tree place ∧ Under platform machine.tree entry place := by
        rintro place ⟨spot, isTarget, there, heads⟩
        have both := stays spot ((target_path_iff isDisk).mpr
          ⟨included, path, checked, ⟨root, rootMem, within⟩, isTarget⟩) place there heads
        rw [if_pos isDisk] at both
        exact both
      constructor
      · intro _ place taken
        exact (held place taken).1
      · rintro ⟨-, -, own, located, rooted, way, isLink⟩ place taken
        rcases (held place taken).2 with ⟨other, isOwn, leads⟩
        rw [mem_ownPlace_iff (checkedPath_eq_ok_iff.mp checked).1, located] at isOwn
        cases isOwn
        rcases taken with ⟨-, -, there, -⟩
        rw [located, eq_of_link_prefix isLink leads there]
    · rintro included isService name named worded place ⟨unit, isUnit, isTarget⟩
      have there : machine.tree.find place ≠ none := by
        intro gone
        have fitting := (unitTarget_eq_some_iff.mp isTarget).2.2.1
        rw [gone] at fitting
        cases fitting
      have both := stays ⟨place, true⟩ ((target_service_iff isService).mpr
        ⟨included, ⟨name, named, worded⟩, unit, isUnit, isTarget⟩) place there rfl
      rw [isService] at both
      exact both
  · intro guided spot isTarget place there heads
    rcases (target_cases isTarget).2 with ⟨isDisk, -⟩ | ⟨isService, -⟩
    · rw [if_pos isDisk]
      rcases (target_path_iff isDisk).mp isTarget with
        ⟨included, path, checked, ⟨root, rootMem, within⟩, isPath⟩
      exact (guided.path included isDisk path checked root rootMem within).holds checked rootMem
        within ⟨spot, isPath, there, heads⟩
    · rcases (target_service_iff isService).mp isTarget with
        ⟨included, ⟨name, named, worded⟩, unit, isUnit, unitEq⟩
      have whole := (unitTarget_eq_some_iff.mp unitEq).2.2.2
      rcases spot with ⟨own, isWhole⟩
      cases whole
      have same : place = own := heads
      subst same
      have both := guided.unit included isService name named worded place ⟨unit, isUnit, unitEq⟩
      rw [isService]
      exact both

/-! ## Runs -/

theorem mem_of_mem_executed {faults : Nat → Option (Region Name)}
    {step : PurgeEntry × Option (Region Name)}
    (mem : step ∈ executed platform.os plan faults) : step.1 ∈ plan.entries := by
  unfold executed at mem
  split at mem
  · rcases List.mem_map.mp mem with ⟨indexed, indexedMem, rfl⟩
    have sorted := List.fst_mem_of_mem_zipIdx indexedMem
    exact List.mem_mergeSort.mp sorted
  · cases mem

theorem eq_none_of_mem_executed {step : PurgeEntry × Option (Region Name)}
    (mem : step ∈ executed platform.os plan noFaults) : step.2 = none := by
  unfold executed at mem
  split at mem
  · rcases List.mem_map.mp mem with ⟨indexed, -, rfl⟩
    rfl
  · cases mem

theorem executeAll_fst (steps : List (PurgeEntry × Option (Region Name))) :
    (executeAll platform roots plan.tier machine steps).1
      = steps.foldl (fun machine step =>
          (executeEntry platform roots plan.tier machine step.1 step.2).1) machine := by
  induction steps generalizing machine with
  | nil => rfl
  | cons first rest ih => exact ih

/-- The steps of an execution lead to the machine that it leaves. -/
theorem run_executed (faults : Nat → Option (Region Name)) :
    run (executeStep platform roots plan.tier) machine (executed platform.os plan faults)
      = some (execute platform roots plan machine faults).1 := by
  have total : ∀ machine step, executeStep platform roots plan.tier machine step
      = some (executeEntry platform roots plan.tier machine step.1 step.2).1 :=
    fun _ _ => rfl
  rw [run_eq_some_foldl total]
  unfold execute
  split
  · rw [executeAll_fst]
  · next otherVersion =>
    rw [executed, if_neg otherVersion]
    rfl

/-- An execution whose entries are all guided into the roots removes nothing else, whichever
removals fail.  One in which none fails removes nothing else only then. -/
theorem confines_throughout_iff (platform : Platform) (roots : List PathBuf) (plan : PurgePlan)
    (machine : Machine) :
    (∀ faults,
      Along (executeStep platform roots plan.tier)
          (fun machine step => Guided platform roots plan machine step.1) machine
          (executed platform.os plan faults) →
        Along (executeStep platform roots plan.tier) (Confines platform roots plan) machine
          (executed platform.os plan faults)) ∧
    (Along (executeStep platform roots plan.tier) (Confines platform roots plan) machine
        (executed platform.os plan noFaults) ↔
      Along (executeStep platform roots plan.tier)
        (fun machine step => Guided platform roots plan machine step.1) machine
        (executed platform.os plan noFaults)) := by
  have enough : ∀ faults,
      Along (executeStep platform roots plan.tier)
          (fun machine step => Guided platform roots plan machine step.1) machine
          (executed platform.os plan faults) →
        Along (executeStep platform roots plan.tier) (Confines platform roots plan) machine
          (executed platform.os plan faults) := by
    intro faults along
    apply along.mono_mem
    rintro state ⟨entry, fault⟩ mem guided
    exact (staysIn_iff.mpr guided).confines (mem_of_mem_executed mem)
  refine ⟨enough, ?_, enough noFaults⟩
  intro along
  apply along.mono_mem
  rintro state ⟨entry, fault⟩ mem confines
  cases eq_none_of_mem_executed mem
  exact staysIn_iff.mp confines.staysIn

/-- A root with a link in it that leads out of it, to a file of the user. -/
def linkedOut : Links.Tree Name where
  nodes :=
    [([utf8 "opt"], .dir), ([utf8 "opt", utf8 "cloto"], .dir),
      ([utf8 "opt", utf8 "cloto", utf8 "data"],
        .link true [.name (utf8 "home")]),
      ([utf8 "home"], .dir), ([utf8 "home", utf8 "notes"], .file)]
  named := by decide +kernel
  distinct := by decide +kernel
  grounded := by decide +kernel

/-- A plan that names a file behind the link by a path in the root. -/
def throughLink : PurgePlan where
  planVersion := planVersion
  tier := .application
  dataDir := absolute ["opt", "cloto"]
  entries := [diskEntry .file (absolute ["opt", "cloto", "data", "notes"])]
  skipped := []

/-- A path in the only root removes a file outside of it. -/
theorem removes_behind_link :
    ¬ Along (executeStep linuxPlatform [absolute ["opt", "cloto"]] throughLink.tier)
      (Confines linuxPlatform [absolute ["opt", "cloto"]] throughLink)
      ⟨linkedOut, false, []⟩ (executed linuxPlatform.os throughLink noFaults) := by
  intro along
  have steps : executed linuxPlatform.os throughLink noFaults
      = [(diskEntry .file (absolute ["opt", "cloto", "data", "notes"]), none)] := by
    simp [executed, executionOrder, orderForRemoval, throughLink, noFaults]
  rw [steps] at along
  rcases along.1 [utf8 "home", utf8 "notes"] (by decide +kernel) (by decide +kernel) with
    ⟨⟨root, mem, leads⟩, -⟩
  have roots : rootPlaces linuxPlatform [absolute ["opt", "cloto"]] linkedOut
      = [[utf8 "opt", utf8 "cloto"], [utf8 "opt", utf8 "cloto"]] := by
    decide +kernel
  rw [roots] at mem
  simp at mem
  subst mem
  revert leads
  decide +kernel

end ClotoCore.Defender
