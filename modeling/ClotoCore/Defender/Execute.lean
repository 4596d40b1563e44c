import ClotoCore.Defender.Plan
import ClotoCore.Encoding.Text
import ClotoCore.Path.Removal
import Mathlib.Data.Set.List

/-!
# Executing a plan

The executor goes through the entries of a plan in the order of their removal.  It checks
each entry by what is written in it, refuses what no root covers, and removes what is on
the disk at the path: a link itself, and a file or a directory if it is still one.  Where
the path goes on after its last name the system passes through a link at that name.
-/

namespace ClotoCore.Defender

open ClotoCore.Encoding ClotoCore.Links

/-- Names as they are compared: on Windows without regard to case. -/
def Os.fold (os : Os) (name : Name) : Name :=
  if os = .windows then name.map fun byte => if 65 ≤ byte ∧ byte ≤ 90 then byte + 32 else byte
  else name

/-- A component as the system compares names. -/
def Component.fold (os : Os) : Component → Component
  | .drive name => .drive (os.fold name)
  | .normal name => .normal (os.fold name)
  | other => other

/-- A component on a way, where a drive is the first directory. -/
def Component.segment? (os : Os) : Component → Option (Lexical.Segment Name)
  | .drive name | .normal name => some (.name (os.fold name))
  | .parentDir => some .up
  | .curDir | .rootDir => none

/-- The way that a path describes from the root. -/
def PathBuf.way (os : Os) (path : PathBuf) : List (Lexical.Segment Name) :=
  path.components.filterMap (Component.segment? os)

/-- What a path has after its last name. -/
inductive Ending where
  | nothing
  | separator
  | dot
  deriving DecidableEq

/-- What stands behind the last name of a path. -/
def PathBuf.ending (path : PathBuf) : Ending :=
  let passed := path.pieces.reverse.takeWhile fun piece => piece = .empty ∨ piece = .dot
  if passed = [] then .nothing
  else if .dot ∈ passed then .dot
  else .separator

/-- The system that a plan is executed on, with how far links are followed and the file
that registers the service, where it is one. -/
structure Platform where
  os : Os
  limit : Nat
  unitFile : Option PathBuf

/-- What an uninstall changes: the tree, the service as Windows has it registered, and the
registry keys by their components in lower case. -/
structure Machine where
  tree : Links.Tree Name
  registered : Bool
  keys : List (List String)

/-- Why an entry is refused. -/
inductive Refusal where
  | planVersion
  | tier
  | noPath
  | notAbsolute
  | filesystemRoot
  | parentDir
  | noRoots
  | outsideRoots
  | typeChanged
  | noServiceName
  | noKey
  | foreignKey
  | notWindows
  deriving DecidableEq

/-- `EntryOutcome` -/
inductive EntryOutcome where
  | removed
  | absent
  | refused (reason : Refusal)
  | failed
  deriving DecidableEq

/-- `PurgeRoots::from_paths`, in any order. -/
def fromPaths (os : Os) (paths : List PathBuf) : List PathBuf :=
  paths.filter fun path => path.isAbsolute os && !path.isFilesystemRoot

/-- `PurgeRoots::from_probe` -/
def fromProbe (os : Os) (dataDir : PathBuf) (installPrefix : Option PathBuf)
    (probe : ProbeRoots) : List PathBuf :=
  fromPaths os <|
    [dataDir] ++ installPrefix.toList ++ probe.home.toList ++ probe.platformData.toList ++
      probe.platformCache.toList ++ probe.platformLocal.toList ++ probe.exeDir.toList ++
      match os with
      | .macos => [absolute ["Applications"]]
      | .windows =>
          (probe.programData.toList.map fun dir => dir.join startMenuRel) ++
            (probe.publicDir.toList.map fun dir => dir.join (relative ["Desktop"])) ++
            probe.desktop.toList
      | .linux =>
          absolute ["etc", "systemd", "system"] ::
            probe.systemShare.toList.flatMap fun share =>
              [share.join (relative ["applications"]), share.join (relative ["icons", "hicolor"])]

/-- `is_within` -/
def isWithin (os : Os) (root path : PathBuf) : Bool :=
  (root.components.map (Component.fold os)).isPrefixOf (path.components.map (Component.fold os))

/-- A text that `non_empty` passes over. -/
def isBlank (text : String) : Bool :=
  trim text == ""

/-- A path that `non_empty` passes over: one with a root has a separator. -/
def PathBuf.isBlank (os : Os) (path : PathBuf) : Bool :=
  !path.rooted && Defender.isBlank (textOf (path.text os))

/-- `checked_path` -/
def checkedPath (os : Os) : Option PathBuf → Except Refusal PathBuf
  | none => .error .noPath
  | some path =>
      if path.isBlank os then .error .noPath
      else if !path.isAbsolute os then .error .notAbsolute
      else if path.isFilesystemRoot then .error .filesystemRoot
      else if path.components.any fun component => component == .parentDir then .error .parentDir
      else .ok path

/-- `contained` -/
def contained (os : Os) (roots : List PathBuf) (path : PathBuf) : Except Refusal PathBuf :=
  if roots.isEmpty then .error .noRoots
  else if roots.any fun root => isWithin os root path then .ok path
  else .error .outsideRoots

/-- The path of an entry, if the executor acts on it. -/
def admittedPath (os : Os) (roots : List PathBuf) (path : Option PathBuf) :
    Except Refusal PathBuf :=
  (checkedPath os path).bind (contained os roots)

/-- Whether what is at a path is of the kind that the plan says, or a link. -/
def fits (kind : PurgeKind) : Node Name → Bool
  | .link _ _ => true
  | .dir => kind = .dir
  | .file => kind = .file

/-- Where a path comes to, and whether the directory there can be removed by it: not if
the path ends in a dot, and on Linux not through a link. -/
def reach (platform : Platform) (tree : Links.Tree Name) (path : PathBuf) :
    Except Stop (Spot Name) :=
  (tree.locate platform.limit (path.way platform.os)).bind fun place =>
    if platform.os = .windows ∨ path.ending = .nothing then .ok ⟨place, true⟩
    else
      (tree.follow platform.limit [] (path.way platform.os)).bind fun final =>
        tree.goOn final <| .ok ⟨final, path.ending = .separator ∧
          (final = place ∨ (platform.os = .macos ∧ final ≠ []))⟩

/-- What is removed from a tree where the removal may fail.  Some of what is in a
directory may be gone then. -/
def removeAt (tree : Links.Tree Name) (spot : Spot Name) (fault : Option (Region Name)) :
    Links.Tree Name × EntryOutcome :=
  match fault with
  | none => (tree.without spot.region, if spot.whole then .removed else .failed)
  | some taken => (tree.without (spot.region.both (taken.beside spot.place)), .failed)

/-- `remove_path` -/
def removePath (platform : Platform) (tree : Links.Tree Name) (path : PathBuf) (kind : PurgeKind)
    (fault : Option (Region Name)) : Links.Tree Name × EntryOutcome :=
  match reach platform tree path with
  | .error .missing => (tree, .absent)
  | .error .blocked => (tree, .failed)
  | .ok spot =>
      match tree.find spot.place with
      | none => (tree, .absent)
      | some node =>
          if fits kind node then removeAt tree spot fault else (tree, .refused .typeChanged)

/-- `uninstall_service`, where a file registers the service.  The file may be gone although
the service manager fails. -/
def removeUnit (platform : Platform) (tree : Links.Tree Name) (unit : PathBuf)
    (fault : Option (Region Name)) : Links.Tree Name × EntryOutcome :=
  match tree.follow platform.limit [] (unit.way platform.os) with
  | .error _ => (tree, .absent)
  | .ok _ =>
      match tree.locate platform.limit (unit.way platform.os) with
      | .error _ => (tree, .failed)
      | .ok place =>
          match tree.find place with
          | none | some .dir => (tree, .failed)
          | some _ =>
              let spot := Spot.mk place true
              match fault with
              | none => (tree.without spot.region, .removed)
              | some taken => (tree.without (spot.region.both taken), .failed)

/-- `uninstall_service` -/
def uninstallService (platform : Platform) (machine : Machine) (fault : Option (Region Name)) :
    Machine × EntryOutcome :=
  match platform.unitFile with
  | some unit =>
      let result := removeUnit platform machine.tree unit fault
      ({ machine with tree := result.1 }, result.2)
  | none =>
      if fault.isSome then (machine, .failed)
      else if machine.registered then ({ machine with registered := false }, .removed)
      else (machine, .absent)

/-- `UNINSTALL_KEY_PREFIX` -/
def uninstallKeyPrefix : List String :=
  ["Software", "Microsoft", "Windows", "CurrentVersion", "Uninstall"]

/-- The parts of a key. -/
def keyParts (key : String) : List String :=
  (key.toList.splitOn '\\').map String.ofList

/-- `is_removable_key` -/
def isRemovableKey (key : String) : Bool :=
  if '/' ∈ key.toList then false
  else
    match keyParts key with
    | [] => false
    | hive :: rest =>
        (["HKLM", "HKCU"].any fun known => eqIgnoreAsciiCase known hive) &&
          !(rest.any isBlank) &&
          !(rest.any fun part => '*' ∈ part.toList || '?' ∈ part.toList) &&
          ((rest.length == uninstallKeyPrefix.length + 1 &&
              (uninstallKeyPrefix.zip rest).all fun pair => eqIgnoreAsciiCase pair.1 pair.2) ||
            (rest.length == productKeyComponents.length &&
              (productKeyComponents.zip rest).all fun pair => eqIgnoreAsciiCase pair.1 pair.2))

/-- The components of a key as the registry compares them. -/
def keyPath (key : String) : List String :=
  (keyParts key).map toAsciiLowercase

/-- `delete_registry_key`, which deletes what is below a key with it. -/
def deleteRegistryKey (machine : Machine) (key : String) (fault : Option (Region Name)) :
    Machine × EntryOutcome :=
  if fault.isSome then (machine, .failed)
  else if machine.keys.any fun other => (keyPath key).isPrefixOf other then
    ({ machine with keys := machine.keys.filter fun other => !(keyPath key).isPrefixOf other },
      .removed)
  else (machine, .absent)

/-- `remove_registry` -/
def removeRegistry (os : Os) (machine : Machine) (key : Option String)
    (fault : Option (Region Name)) : Machine × EntryOutcome :=
  match key.filter fun key => !isBlank key with
  | none => (machine, .refused .noKey)
  | some key =>
      if !isRemovableKey key then (machine, .refused .foreignKey)
      else if os ≠ .windows then (machine, .refused .notWindows)
      else deleteRegistryKey machine key fault

/-- `execute_entry`, for an entry of a tier that the plan includes. -/
def executeEntry (platform : Platform) (roots : List PathBuf) (tier : PurgeTier)
    (machine : Machine) (entry : PurgeEntry) (fault : Option (Region Name)) :
    Machine × EntryOutcome :=
  if tier.includes entry.tier then
    match entry.kind with
    | .file | .dir =>
        match admittedPath platform.os roots entry.path with
        | .error reason => (machine, .refused reason)
        | .ok path =>
            let result := removePath platform machine.tree path entry.kind fault
            ({ machine with tree := result.1 }, result.2)
    | .service =>
        match entry.name.filter fun name => !isBlank name with
        | none => (machine, .refused .noServiceName)
        | some _ => uninstallService platform machine fault
    | .registry => removeRegistry platform.os machine entry.key fault
  else (machine, .refused .tier)

/-- Go through entries, each with how its removal fails, if it does. -/
def executeAll (platform : Platform) (roots : List PathBuf) (tier : PurgeTier) :
    Machine → List (PurgeEntry × Option (Region Name)) →
      Machine × List (PurgeEntry × EntryOutcome)
  | machine, [] => (machine, [])
  | machine, step :: rest =>
      let result := executeEntry platform roots tier machine step.1 step.2
      let after := executeAll platform roots tier result.1 rest
      (after.1, (step.1, result.2) :: after.2)

/-- The entries of a plan in the order in which they are executed. -/
def executionOrder (os : Os) (plan : PurgePlan) : List PurgeEntry :=
  orderForRemoval os plan.entries <|
    if plan.dataDir.isBlank os then none else some (receiptPath plan.dataDir)

/-- The entries that are gone through, where the `n`-th removal fails as stated. -/
def executed (os : Os) (plan : PurgePlan) (faults : Nat → Option (Region Name)) :
    List (PurgeEntry × Option (Region Name)) :=
  if plan.planVersion = planVersion then
    (executionOrder os plan).zipIdx.map fun entry => (entry.1, faults entry.2)
  else []

/-- No removal fails. -/
def noFaults : Nat → Option (Region Name) :=
  fun _ => none

/-- `execute` -/
def execute (platform : Platform) (roots : List PathBuf) (plan : PurgePlan) (machine : Machine)
    (faults : Nat → Option (Region Name)) : Machine × List (PurgeEntry × EntryOutcome) :=
  if plan.planVersion = planVersion then
    executeAll platform roots plan.tier machine (executed platform.os plan faults)
  else (machine, plan.entries.map fun entry => (entry, .refused .planVersion))

/-! ## Where an entry removes something -/

/-- Where a path is removed. -/
def pathTarget (platform : Platform) (tree : Links.Tree Name) (path : PathBuf) (kind : PurgeKind) :
    Option (Spot Name) :=
  match reach platform tree path with
  | .error _ => none
  | .ok spot => if (tree.find spot.place).any (fits kind) then some spot else none

/-- Where the file that registers the service is removed. -/
def unitTarget (platform : Platform) (tree : Links.Tree Name) (unit : PathBuf) :
    Option (Spot Name) :=
  match tree.follow platform.limit [] (unit.way platform.os) with
  | .error _ => none
  | .ok _ =>
      match tree.locate platform.limit (unit.way platform.os) with
      | .error _ => none
      | .ok place =>
          if (tree.find place).any fun node => node ≠ .dir then some ⟨place, true⟩ else none

/-- Where an entry removes something. -/
def target (platform : Platform) (roots : List PathBuf) (tier : PurgeTier) (tree : Links.Tree Name)
    (entry : PurgeEntry) : Option (Spot Name) :=
  if tier.includes entry.tier then
    match entry.kind with
    | .file | .dir =>
        match admittedPath platform.os roots entry.path with
        | .error _ => none
        | .ok path => pathTarget platform tree path entry.kind
    | .service =>
        match entry.name.filter fun name => !isBlank name with
        | none => none
        | some _ => platform.unitFile.bind (unitTarget platform tree)
    | .registry => none
  else none

variable {platform : Platform} {roots : List PathBuf} {tier : PurgeTier}
    {tree other : Links.Tree Name}
  {machine : Machine} {entry : PurgeEntry} {fault : Option (Region Name)} {spot : Spot Name}

/-- What a failure lets go of where an entry is removed: of a file or a directory not what
is at the path itself. -/
def loses (kind : PurgeKind) (spot : Option (Spot Name)) (fault : Option (Region Name)) :
    Option (Region Name) :=
  if kind.onDisk then
    fault.map fun taken => spot.elim taken fun spot => taken.beside spot.place
  else fault

theorem removePath_tree (path : PathBuf) {kind : PurgeKind} (isDisk : kind.onDisk = true) :
    (removePath platform tree path kind fault).1
      = cut tree (pathTarget platform tree path kind)
          (loses kind (pathTarget platform tree path kind) fault) := by
  unfold removePath pathTarget
  cases reach platform tree path with
  | error stop =>
      cases stop with
      | missing => rfl
      | blocked => rfl
  | ok spot =>
      dsimp only
      cases found : tree.find spot.place with
      | none => rfl
      | some node =>
          by_cases isFit : fits kind node = true
          · simp only [Option.any_some, isFit, if_true, loses, isDisk]
            cases fault with
            | none => rfl
            | some taken => rfl
          · simp [isFit, Links.cut]

theorem removeUnit_tree (unit : PathBuf) :
    (removeUnit platform tree unit fault).1 = cut tree (unitTarget platform tree unit) fault := by
  unfold removeUnit unitTarget
  cases tree.follow platform.limit [] (unit.way platform.os) with
  | error stop => rfl
  | ok final =>
      cases tree.locate platform.limit (unit.way platform.os) with
      | error stop => rfl
      | ok place =>
          dsimp only
          cases found : tree.find place with
          | none => rfl
          | some node =>
              cases node with
              | dir => rfl
              | file | link =>
                  cases fault with
                  | none => rfl
                  | some taken => rfl

theorem uninstallService_tree :
    (uninstallService platform machine fault).1.tree
      = cut machine.tree (platform.unitFile.bind (unitTarget platform machine.tree)) fault := by
  unfold uninstallService
  cases platform.unitFile with
  | some unit => exact removeUnit_tree unit
  | none =>
      dsimp only
      split
      · rfl
      · split
        · rfl
        · rfl

theorem removeRegistry_tree (os : Os) (key : Option String) :
    (removeRegistry os machine key fault).1.tree = machine.tree := by
  unfold removeRegistry deleteRegistryKey
  split
  · rfl
  · split
    · rfl
    · split
      · rfl
      · split
        · rfl
        · split
          · rfl
          · rfl

/-- An entry cuts the tree at its target, if it has one. -/
theorem executeEntry_tree :
    (executeEntry platform roots tier machine entry fault).1.tree
      = clear (target platform roots tier) machine.tree entry
          (loses entry.kind (target platform roots tier machine.tree entry) fault) := by
  unfold clear executeEntry target
  split
  · cases kind : entry.kind with
    | file | dir =>
        dsimp only
        cases admittedPath platform.os roots entry.path with
        | error reason => rfl
        | ok path => exact removePath_tree path rfl
    | service =>
        dsimp only
        cases entry.name.filter fun name => !isBlank name with
        | none => rfl
        | some name => exact uninstallService_tree
    | registry => exact removeRegistry_tree platform.os entry.key
  · rfl

/-! ## Targets in smaller trees -/

theorem sameOrMissing_reach (sub : tree.Sub other) (path : PathBuf) :
    Tree.SameOrMissing (reach platform tree path) (reach platform other path) := by
  unfold reach
  rcases sub.locate platform.limit (path.way platform.os) with missing | same
  · rw [missing]
    exact Or.inl rfl
  · rw [same]
    cases other.locate platform.limit (path.way platform.os) with
    | error stop => exact Or.inr rfl
    | ok place =>
        dsimp only [Except.bind]
        split
        · exact Or.inr rfl
        · rcases sub.follow platform.limit [] (path.way platform.os) with missing | same
          · rw [missing]
            exact Or.inl rfl
          · rw [same]
            cases other.follow platform.limit [] (path.way platform.os) with
            | error stop => exact Or.inr rfl
            | ok final => exact sub.goOn (Or.inr rfl)

theorem reach_eq_ok_of_sub (sub : tree.Sub other) {path : PathBuf}
    (reached : reach platform tree path = .ok spot) : reach platform other path = .ok spot := by
  rcases sameOrMissing_reach sub path with missing | same
  · cases missing.symm.trans reached
  · exact same.symm.trans reached

/-- A directory that can be removed is not the root. -/
theorem ne_nil_of_reach {path : PathBuf} (reached : reach platform tree path = .ok spot)
    (whole : spot.whole = true) : spot.place ≠ [] := by
  unfold reach at reached
  cases located : tree.locate platform.limit (path.way platform.os) with
  | error stop =>
      rw [located] at reached
      cases reached
  | ok place =>
      have named := Tree.ne_nil_of_locate located
      rw [located] at reached
      dsimp only [Except.bind] at reached
      split at reached
      · cases reached
        exact named
      · split at reached
        · cases reached
        · unfold Tree.goOn at reached
          split at reached
          · cases reached
            rcases (of_decide_eq_true whole).2 with rfl | apart
            · exact named
            · exact apart.2
          · cases reached
          · cases reached

theorem pathTarget_eq_some_iff {path : PathBuf} {kind : PurgeKind} :
    pathTarget platform tree path kind = some spot ↔
      reach platform tree path = .ok spot ∧ (tree.find spot.place).any (fits kind) = true := by
  unfold pathTarget
  cases reach platform tree path with
  | error stop => simp
  | ok reached =>
      simp only [Option.ite_none_right_eq_some, Option.some.injEq, Except.ok.injEq]
      constructor
      · rintro ⟨isFit, rfl⟩
        exact ⟨rfl, isFit⟩
      · rintro ⟨rfl, isFit⟩
        exact ⟨isFit, rfl⟩

theorem unitTarget_eq_some_iff {unit : PathBuf} :
    unitTarget platform tree unit = some spot ↔
      (∃ final, tree.follow platform.limit [] (unit.way platform.os) = .ok final) ∧
        tree.locate platform.limit (unit.way platform.os) = .ok spot.place ∧
        ((tree.find spot.place).any fun node => node ≠ .dir) = true ∧ spot.whole = true := by
  rcases spot with ⟨place, whole⟩
  unfold unitTarget
  cases tree.follow platform.limit [] (unit.way platform.os) with
  | error stop => simp
  | ok final =>
      cases tree.locate platform.limit (unit.way platform.os) with
      | error stop => simp
      | ok located =>
          simp only [Option.ite_none_right_eq_some, Option.some.injEq, Except.ok.injEq,
            Spot.mk.injEq]
          constructor
          · rintro ⟨isFit, rfl, rfl⟩
            exact ⟨⟨final, rfl⟩, rfl, isFit, rfl⟩
          · rintro ⟨-, rfl, isFit, rfl⟩
            exact ⟨isFit, rfl, rfl⟩

/-- What an entry has its target at. -/
theorem target_cases (isTarget : target platform roots tier tree entry = some spot) :
    tier.includes entry.tier = true ∧
      ((entry.kind.onDisk = true ∧ ∃ path, admittedPath platform.os roots entry.path = .ok path ∧
          pathTarget platform tree path entry.kind = some spot) ∨
        (entry.kind = .service ∧ ∃ unit, platform.unitFile = some unit ∧
          unitTarget platform tree unit = some spot)) := by
  unfold target at isTarget
  split at isTarget
  · next included =>
    refine ⟨included, ?_⟩
    cases kind : entry.kind with
    | file | dir =>
        left
        rw [kind] at isTarget
        dsimp only at isTarget
        refine ⟨rfl, ?_⟩
        cases admitted : admittedPath platform.os roots entry.path with
        | error reason =>
            rw [admitted] at isTarget
            cases isTarget
        | ok path =>
            rw [admitted] at isTarget
            exact ⟨path, rfl, isTarget⟩
    | service =>
        right
        rw [kind] at isTarget
        dsimp only at isTarget
        refine ⟨rfl, ?_⟩
        split at isTarget
        · cases isTarget
        · exact Option.bind_eq_some_iff.mp isTarget
    | registry =>
        rw [kind] at isTarget
        cases isTarget
  · cases isTarget

theorem pathTarget_mono (sub : tree.Sub other) {path : PathBuf} {kind : PurgeKind}
    (isTarget : pathTarget platform tree path kind = some spot) :
    pathTarget platform other path kind = some spot := by
  rcases pathTarget_eq_some_iff.mp isTarget with ⟨reached, isFit⟩
  exact pathTarget_eq_some_iff.mpr ⟨reach_eq_ok_of_sub sub reached, sub.any_find isFit⟩

theorem unitTarget_mono (sub : tree.Sub other) {unit : PathBuf}
    (isTarget : unitTarget platform tree unit = some spot) :
    unitTarget platform other unit = some spot := by
  rcases unitTarget_eq_some_iff.mp isTarget with ⟨⟨final, followed⟩, located, isFit, whole⟩
  exact unitTarget_eq_some_iff.mpr
    ⟨⟨final, sub.follow_eq_ok followed⟩, sub.locate_eq_ok located, sub.any_find isFit, whole⟩

theorem find_of_target (isTarget : target platform roots tier tree entry = some spot) :
    tree.find spot.place ≠ none := by
  intro gone
  rcases (target_cases isTarget).2 with ⟨-, path, -, isPath⟩ | ⟨-, unit, -, isUnit⟩
  · have isFit := (pathTarget_eq_some_iff.mp isPath).2
    rw [gone] at isFit
    cases isFit
  · have isFit := (unitTarget_eq_some_iff.mp isUnit).2.2.1
    rw [gone] at isFit
    cases isFit

/-- The targets of entries are there, and they do not change as a tree gets smaller. -/
theorem targets_target : Targets (target platform roots tier) where
  there _ _ _ isTarget := find_of_target isTarget
  mono tree other entry spot sub isTarget := by
    unfold target at isTarget ⊢
    split at isTarget
    · next included =>
      rw [if_pos included]
      split at isTarget
      · split at isTarget
        · cases isTarget
        · exact pathTarget_mono sub isTarget
      · split at isTarget
        · cases isTarget
        · exact pathTarget_mono sub isTarget
      · split at isTarget
        · cases isTarget
        · rcases Option.bind_eq_some_iff.mp isTarget with ⟨unit, unitEq, isUnit⟩
          exact Option.bind_eq_some_iff.mpr ⟨unit, unitEq, unitTarget_mono sub isUnit⟩
      · cases isTarget
    · cases isTarget

/-! ## What is admitted -/

theorem isWithin_iff {os : Os} {root path : PathBuf} :
    isWithin os root path = true ↔
      root.components.map (Component.fold os) <+: path.components.map (Component.fold os) :=
  List.isPrefixOf_iff_prefix

theorem checkedPath_eq_ok_iff {os : Os} {named : Option PathBuf} {path : PathBuf} :
    checkedPath os named = .ok path ↔
      named = some path ∧ path.isBlank os = false ∧ path.isAbsolute os = true ∧
        path.isFilesystemRoot = false ∧ .parentDir ∉ path.components := by
  unfold checkedPath
  cases named with
  | none => simp
  | some other =>
      dsimp only
      by_cases same : other = path
      · subst same
        split
        · next blank => simp [blank]
        · next worded =>
          split
          · next relative => simp_all
          · next isAbs =>
            split
            · next isRoot => simp_all
            · next inner =>
              split
              · next up => simp_all
              · next clean => simp_all
      · simp only [Option.some.injEq, same, false_and, iff_false]
        intro checked
        split at checked
        · cases checked
        · split at checked
          · cases checked
          · split at checked
            · cases checked
            · split at checked
              · cases checked
              · exact same (Except.ok.inj checked)

/-- The executor acts on a path exactly if it passes the floor and a root covers it. -/
theorem admittedPath_eq_ok_iff {os : Os} {named : Option PathBuf} {path : PathBuf} :
    admittedPath os roots named = .ok path ↔
      checkedPath os named = .ok path ∧ ∃ root ∈ roots, isWithin os root path = true := by
  unfold admittedPath
  cases checkedPath os named with
  | error reason => simp [Except.bind]
  | ok checked =>
      dsimp only [Except.bind, contained]
      constructor
      · intro admitted
        split at admitted
        · cases admitted
        · split at admitted
          · next covered =>
            cases admitted
            exact ⟨rfl, List.any_eq_true.mp covered⟩
          · cases admitted
      · rintro ⟨same, root, mem, within⟩
        cases same
        have some : ¬ roots.isEmpty = true := by
          intro empty
          rw [List.isEmpty_iff.mp empty] at mem
          cases mem
        rw [if_neg some, if_pos (List.any_eq_true.mpr ⟨root, mem, within⟩)]

theorem filterMap_segment?_congr {os : Os} {first second : List Component}
    (same : first.map (Component.fold os) = second.map (Component.fold os)) :
    first.filterMap (Component.segment? os) = second.filterMap (Component.segment? os) := by
  induction first generalizing second with
  | nil =>
      cases second with
      | nil => rfl
      | cons other rest => cases same
  | cons component rest ih =>
      cases second with
      | nil => cases same
      | cons other others =>
          rw [List.map_cons, List.map_cons, List.cons.injEq] at same
          have segments : component.segment? os = other.segment? os := by
            have folded := same.1
            cases component <;> cases other <;> simp_all [Component.fold, Component.segment?]
          simp only [List.filterMap_cons, segments, ih same.2]

/-- The way to what lies in a root goes on from the way to the root. -/
theorem way_of_isWithin {os : Os} {root path : PathBuf} (within : isWithin os root path = true) :
    ∃ more, path.way os = root.way os ++ more := by
  rcases isWithin_iff.mp within with ⟨back, split⟩
  rcases List.append_eq_map_iff.mp split with ⟨front, rest, parts, fronts, -⟩
  refine ⟨rest.filterMap (Component.segment? os), ?_⟩
  rw [PathBuf.way, parts, List.filterMap_append, filterMap_segment?_congr fronts]
  rfl

/-- A path that does not lead up is a way of names. -/
theorem exists_names_of_way {os : Os} {path : PathBuf} (clean : .parentDir ∉ path.components) :
    ∃ names : List Name, path.way os = names.map .name := by
  have named : path.way os ∈ Set.range (List.map Lexical.Segment.name) := by
    rw [Set.range_list_map]
    intro segment mem
    rcases List.mem_filterMap.mp mem with ⟨component, componentMem, isSegment⟩
    cases component with
    | drive name | normal name => exact ⟨_, Option.some.inj isSegment⟩
    | parentDir => exact absurd componentMem clean
    | curDir | rootDir => cases isSegment
  rcases named with ⟨names, same⟩
  exact ⟨names, same.symm⟩

/-! ## A machine with systemd -/

/-- Linux, which follows forty links, with a unit of the system. -/
def linuxPlatform : Platform where
  os := .linux
  limit := 40
  unitFile := some systemdUnit

/-- What a plan says about a path. -/
def diskEntry (kind : PurgeKind) (path : PathBuf) : PurgeEntry where
  id := "entry"
  kind := kind
  path := some path
  key := none
  name := none
  tier := .application
  source := .receipt
  unreadable := false
  secret := false
  coversSecret := false

end ClotoCore.Defender
