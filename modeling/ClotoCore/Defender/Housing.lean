import ClotoCore.Defender.Agreement
import Mathlib.Data.List.TakeWhile

/-!
# Which places the roots cover

The roots are taken from the directories of the layout.  They cover what the planner finds
in such a directory, and what a receipt records in the data directory, where the directory
is spelled as it is: absolute, without detours, and more than a filesystem.  Only what a
receipt records elsewhere, or what lies in a directory that is spelled otherwise, can be
offered without being accepted.
-/

namespace ClotoCore.Defender

open ClotoCore.Encoding ClotoCore.Links ClotoCore.Lookup

/-- A directory that is spelled as it is, and more than a filesystem. -/
structure PathBuf.Proper (os : Os) (dir : PathBuf) : Prop where
  isAbsolute : dir.isAbsolute os = true
  clean : dir.Clean
  inner : dir.isFilesystemRoot = false

/-- A path goes on from a directory by names. -/
def PathBuf.Below (dir path : PathBuf) : Prop :=
  ∃ names : List Name, path = { dir with pieces := dir.pieces ++ names.map .normal }

/-- What the receipt has, with the files that belong to a database. -/
def recordedCandidates (host : Host) (receipt : Option Receipt) : List Candidate :=
  (expressed receipt).flatMap fun entry => entry.candidate :: sidecarCandidates host entry

/-- What the prefix of the caller and the directories of the layout have. -/
def layoutCandidates (host : Host) (request : PlanRequest) : List Candidate :=
  (request.installPrefix.toList.map fun path =>
    .pathEntry "install_prefix" .dir path .application .receipt) ++ foundOn host request

/-- The prefix of the caller and the directories of the layout. -/
def layoutDirs (request : PlanRequest) : List PathBuf :=
  request.installPrefix.toList ++ request.roots.home.toList ++ request.roots.platformData.toList ++
    request.roots.platformCache.toList ++ request.roots.platformLocal.toList ++
    request.roots.exeDir.toList ++ request.roots.programData.toList ++
    request.roots.publicDir.toList ++ request.roots.desktop.toList ++
    request.roots.systemShare.toList

/-- What is left at the tier and lies in no directory that is left. -/
def leftOver (host : Host) (request : PlanRequest) (receipt : Option Receipt) : List Present :=
  let within := inTier host request.tier
    (collectCandidates host request receipt (foundOn host request)).1
  within.filter (standsAlone (dirsOf within))

/-- A file or directory is left at a place. -/
def Due (host : Host) (request : PlanRequest) (receipt : Option Receipt) (place : PathBuf) : Prop :=
  ∃ left ∈ leftOver host request receipt, left.kind.onDisk = true ∧ left.path = some place

/-- A place lies in a root of the layout, as the two are written. -/
def InRoot (host : Host) (request : PlanRequest) (place : PathBuf) : Prop :=
  ∃ root ∈ layoutRoots host request, isWithin host.os root place = true

/-- What is recorded outside of a data directory that is spelled as it is, and what lies in
a directory of the layout that is not, lies in a root if it is left to be removed. -/
structure Housed (host : Host) (request : PlanRequest) (receipt : Option Receipt) : Prop where
  named : ∀ candidate ∈ (collectCandidates host request receipt (foundOn host request)).1,
    candidate.kind.onDisk = true → candidate.tier ≤ request.tier → candidate.path ≠ none
  recorded : ∀ candidate ∈ recordedCandidates host receipt, candidate.kind.onDisk = true →
    ∀ path ∈ candidate.path, ∀ place ∈ path.absolutize host.os host.currentDir,
      Due host request receipt place →
      (request.dataDir.Proper host.os → place.startsWith request.dataDir = false) →
        InRoot host request place
  layout : ∀ candidate ∈ layoutCandidates host request, candidate.kind.onDisk = true →
    ∀ path ∈ candidate.path, (∃ dir ∈ layoutDirs request, dir.Below path ∧ ¬ dir.Proper host.os) →
      ∀ place ∈ path.absolutize host.os host.currentDir,
        Due host request receipt place → InRoot host request place

/-- Of what is left no file is named a directory and no directory a file. -/
def Kinded (host : Host) (request : PlanRequest) (receipt : Option Receipt) (limit : Nat)
    (machine : Machine) : Prop :=
  ∀ left ∈ leftOver host request receipt, left.kind.onDisk = true → ∀ path ∈ left.path,
    ∀ place, machine.tree.locate limit (path.way host.os) = .ok place →
      (left.kind = .dir → machine.tree.find place ≠ some .file) ∧
        (left.kind = .file → machine.tree.find place ≠ some .dir)

variable {host : Host} {request : PlanRequest} {receipt : Option Receipt} {limit : Nat}
  {unitFile : Option PathBuf} {machine : Machine} {entry : PurgeEntry} {os : Os}
  {path place dir root : PathBuf} {candidate : Candidate} {left : Present}

/-! ## Below a directory -/

theorem PathBuf.below_join (dir : PathBuf) (names : List String) :
    dir.Below (dir.join (relative names)) := by
  refine ⟨names.map utf8, ?_⟩
  simp [join, relative, Function.comp_def]

theorem PathBuf.Below.trans {inner : PathBuf} (outer : dir.Below path) (below : path.Below inner) :
    dir.Below inner := by
  rcases outer with ⟨names, rfl⟩
  rcases below with ⟨more, rfl⟩
  exact ⟨names ++ more, by simp⟩

theorem PathBuf.below_push (path : PathBuf) (name : Name) : path.Below (path.push (.normal name)) :=
  ⟨[name], rfl⟩

theorem PathBuf.below_refl (dir : PathBuf) : dir.Below dir :=
  ⟨[], by simp⟩

/-- What lies below an absolute directory goes on from its components. -/
theorem PathBuf.Below.components (below : dir.Below path) (rooted : dir.rooted = true) :
    dir.components <+: path.components := by
  rcases below with ⟨names, rfl⟩
  refine ⟨names.map .normal, ?_⟩
  simp [PathBuf.components, PathBuf.anchor, rooted, Function.comp_def, Piece.component?]

/-- What lies below a directory that is spelled as it is, is spelled as it is. -/
theorem PathBuf.Below.proper (below : dir.Below path) (proper : dir.Proper os) :
    path.Proper os := by
  have rooted : dir.rooted = true := (Bool.and_eq_true_iff.mp proper.isAbsolute).1
  have leads := below.components rooted
  rcases below with ⟨names, rfl⟩
  refine ⟨proper.isAbsolute, ?_, ?_⟩
  · intro piece mem
    rcases List.mem_append.mp mem with before | after
    · exact proper.clean piece before
    · rcases List.mem_map.mp after with ⟨name, -, rfl⟩
      exact ⟨name, rfl⟩
  · have inner := proper.inner
    simp only [PathBuf.isFilesystemRoot, List.all_eq_false] at inner ⊢
    rcases inner with ⟨component, mem, isName⟩
    exact ⟨component, leads.subset mem, isName⟩

theorem proper_absolute {names : List String} (named : names ≠ []) :
    (absolute names).Proper .linux := by
  refine ⟨rfl, absolute_clean names, ?_⟩
  rcases List.exists_cons_of_ne_nil named with ⟨first, rest, rfl⟩
  rfl

/-- A path that is spelled as it is, is its own place. -/
theorem PathBuf.Proper.eq_of_absolutize {currentDir : Option PathBuf} (proper : path.Proper os)
    (made : path.absolutize os currentDir = some place) : place = path := by
  have named := PathBuf.lexical_of_absolutize made
  rw [PathBuf.lexical_of_clean proper.isAbsolute proper.clean] at named
  exact (Option.some.inj named).symm

theorem isWithin_of_prefix (leads : root.components <+: place.components) :
    isWithin os root place = true :=
  isWithin_iff.mpr (leads.map _)

theorem isWithin_congr {other : PathBuf} (same : place.components = other.components) :
    isWithin os root place = isWithin os root other := by
  rw [isWithin, isWithin, same]

/-! ## What the roots cover -/

/-- The directories of a layout that are roots as they are. -/
theorem mem_layoutRoots_of_proper (proper : dir.Proper host.os)
    (mem : dir ∈ [request.dataDir] ++ request.installPrefix.toList ++ request.roots.home.toList ++
      request.roots.platformData.toList ++ request.roots.platformCache.toList ++
      request.roots.platformLocal.toList ++ request.roots.exeDir.toList) :
    dir ∈ layoutRoots host request := by
  refine List.mem_filter.mpr ⟨List.mem_append_left _ mem, ?_⟩
  simp [proper.isAbsolute, proper.inner]

/-- A root that covers what lies below it. -/
theorem exists_root_of_below (mem : root ∈ layoutRoots host request) (below : root.Below path) :
    ∃ root ∈ layoutRoots host request, root.components <+: path.components := by
  have isAbs := isAbsolute_of_mem_layoutRoots mem
  exact ⟨root, mem, below.components (Bool.and_eq_true_iff.mp isAbs).1⟩

theorem exists_dir_of_mem_probed {id : String} {kind : PurgeKind} {probe : Option PathBuf}
    {names : List String} {tier : PurgeTier} (mem : candidate ∈ probed id kind probe names tier) :
    ∃ dir, probe = some dir ∧ candidate.path = some (dir.join (relative names)) := by
  rcases List.mem_map.mp mem with ⟨dir, isDir, rfl⟩
  exact ⟨dir, Option.mem_toList.mp isDir, rfl⟩

/-- A path has a directory of the layout around it whose root covers it where the
directory is spelled as it is. -/
def Homed (host : Host) (request : PlanRequest) (path : PathBuf) : Prop :=
  ∃ dir ∈ layoutDirs request, dir.Below path ∧ (dir.Proper host.os →
    ∃ root ∈ layoutRoots host request, root.components <+: path.components)

/-- What is probed in a directory that is a root as it is. -/
theorem homed_of_root {names : List String} (listed : dir ∈ layoutDirs request)
    (mem : dir ∈ [request.dataDir] ++ request.installPrefix.toList ++ request.roots.home.toList ++
      request.roots.platformData.toList ++ request.roots.platformCache.toList ++
      request.roots.platformLocal.toList ++ request.roots.exeDir.toList)
    (named : candidate.path = some (dir.join (relative names))) :
    ∀ path ∈ candidate.path, Homed host request path := by
  intro path isPath
  cases named.symm.trans isPath
  refine ⟨dir, listed, dir.below_join names, fun proper => ?_⟩
  exact exists_root_of_below (mem_layoutRoots_of_proper proper mem) (dir.below_join names)

theorem PathBuf.join_append (dir : PathBuf) (front back : List String) :
    dir.join (relative (front ++ back)) = (dir.join (relative front)).join (relative back) := by
  simp [join, relative]

/-- What is probed in a directory below one of the layout that is a root. -/
theorem homed_of_joined {front back : List String} (listed : dir ∈ layoutDirs request)
    (mem : (dir.join (relative front)).Proper host.os →
      dir.join (relative front) ∈ layoutRoots host request)
    (named : candidate.path = some (dir.join (relative (front ++ back)))) :
    ∀ path ∈ candidate.path, Homed host request path := by
  intro path isPath
  cases named.symm.trans isPath
  refine ⟨dir, listed, dir.below_join _, fun proper => ?_⟩
  rw [PathBuf.join_append]
  exact exists_root_of_below (mem ((dir.below_join front).proper proper))
    ((dir.join (relative front)).below_join back)

theorem below_of_mem_iconCandidates {share icon : PathBuf} {exe : Option PathBuf}
    (mem : icon ∈ iconCandidates host share exe) :
    (share.join (relative ["icons", "hicolor"])).Below icon := by
  unfold iconCandidates at mem
  split at mem
  · cases mem
  · rcases List.mem_map.mp (List.mem_of_mem_filter mem) with ⟨size, -, rfl⟩
    exact ((PathBuf.below_push _ _).trans (PathBuf.below_join _ _)).trans (PathBuf.below_push _ _)

/-- What belongs to the desktop is covered by what the platform adds to the roots. -/
theorem homed_of_mem_desktopIntegration
    (mem : candidate ∈ desktopIntegrationCandidates host request.roots) :
    ∀ path ∈ candidate.path, Homed host request path := by
  unfold desktopIntegrationCandidates at mem
  split at mem
  · next isWindows =>
    simp only [List.mem_append, or_assoc] at mem
    rcases mem with startMenu | userMenu | desktop | userDesktop
    · rcases exists_dir_of_mem_probed startMenu with ⟨dir, isDir, named⟩
      refine homed_of_joined (by simp [layoutDirs, isDir]) (fun proper => ?_) named
      refine List.mem_filter.mpr ⟨List.mem_append_right _ ?_, ?_⟩
      · simp [isWindows, isDir, startMenuRel]
      · simp [proper.isAbsolute, proper.inner]
    · rcases exists_dir_of_mem_probed userMenu with ⟨dir, isDir, named⟩
      exact homed_of_root (by simp [layoutDirs, isDir]) (by simp [isDir]) named
    · rcases exists_dir_of_mem_probed desktop with ⟨dir, isDir, named⟩
      refine @homed_of_joined host request dir candidate ["Desktop"] [productName ++ ".lnk"]
        (by simp [layoutDirs, isDir]) (fun proper => ?_) named
      refine List.mem_filter.mpr ⟨List.mem_append_right _ ?_, ?_⟩
      · simp [isWindows, isDir]
      · simp [proper.isAbsolute, proper.inner]
    · rcases exists_dir_of_mem_probed userDesktop with ⟨dir, isDir, named⟩
      intro path isPath
      cases named.symm.trans isPath
      refine ⟨dir, by simp [layoutDirs, isDir], dir.below_join _, fun proper => ?_⟩
      refine exists_root_of_below (List.mem_filter.mpr ⟨List.mem_append_right _ ?_, ?_⟩)
        (dir.below_join _)
      · simp [isWindows, isDir]
      · simp [proper.isAbsolute, proper.inner]
  · next isLinux =>
    cases shareEq : request.roots.systemShare with
    | none =>
        rw [shareEq] at mem
        cases mem
    | some share =>
        rw [shareEq] at mem
        have listed : share ∈ layoutDirs request := by simp [layoutDirs, shareEq]
        rcases List.mem_cons.mp mem with rfl | icon
        · refine @homed_of_joined host request share _ ["applications"]
            [productName ++ ".desktop"] listed (fun proper => ?_) rfl
          refine List.mem_filter.mpr ⟨List.mem_append_right _ ?_, ?_⟩
          · simp [isLinux, shareEq]
          · simp [proper.isAbsolute, proper.inner]
        · rcases List.mem_map.mp icon with ⟨indexed, indexedMem, rfl⟩
          intro path isPath
          cases isPath
          have ofIcons := List.fst_mem_of_mem_zipIdx indexedMem
          have below := below_of_mem_iconCandidates ofIcons
          refine ⟨share, listed, (share.below_join _).trans below, fun proper => ?_⟩
          refine exists_root_of_below (List.mem_filter.mpr ⟨List.mem_append_right _ ?_, ?_⟩) below
          · simp [isLinux, shareEq]
          · have subProper := (share.below_join ["icons", "hicolor"]).proper proper
            simp [subProper.isAbsolute, subProper.inner]
  · cases mem

/-- What the platform has is covered by the root that it is probed in, or is the unit. -/
theorem homed_of_mem_platform (mem : candidate ∈ platformCandidates host request.roots) :
    ∀ path ∈ candidate.path, Homed host request path ∨ host.os = .linux ∧ path = systemdUnit := by
  have homed : (∀ path ∈ candidate.path, Homed host request path) → ∀ path ∈ candidate.path,
      Homed host request path ∨ host.os = .linux ∧ path = systemdUnit :=
    fun all path isPath => Or.inl (all path isPath)
  have atRoot : ∀ {id kind probe names tier}, candidate ∈ probed id kind probe names tier →
      (∀ dir, probe = some dir → dir ∈ layoutDirs request ∧
        dir ∈ [request.dataDir] ++ request.installPrefix.toList ++ request.roots.home.toList ++
          request.roots.platformData.toList ++ request.roots.platformCache.toList ++
          request.roots.platformLocal.toList ++ request.roots.exeDir.toList) →
      ∀ path ∈ candidate.path, Homed host request path := by
    intro id kind probe names tier ofProbe isRoot
    rcases exists_dir_of_mem_probed ofProbe with ⟨dir, isDir, named⟩
    exact homed_of_root (isRoot dir isDir).1 (isRoot dir isDir).2 named
  unfold platformCandidates at mem
  split at mem
  · apply homed
    simp only [List.mem_append, or_assoc] at mem
    rcases mem with mem | mem | mem | mem | mem
    all_goals
      exact atRoot mem fun dir isDir => ⟨by simp [layoutDirs, isDir], by simp [isDir]⟩
  · next isLinux =>
    simp only [List.mem_cons, List.mem_append, or_assoc] at mem
    rcases mem with rfl | mem | mem | mem
    · intro path isPath
      cases isPath
      exact Or.inr ⟨isLinux, rfl⟩
    · exact homed (atRoot mem fun dir isDir => ⟨by simp [layoutDirs, isDir], by simp [isDir]⟩)
    · exact homed (atRoot mem fun dir isDir => ⟨by simp [layoutDirs, isDir], by simp [isDir]⟩)
    · exact homed (homed_of_mem_desktopIntegration mem)
  · apply homed
    simp only [List.mem_append, identifierContainerCandidates, or_assoc] at mem
    rcases mem with mem | mem | mem | mem | mem
    · exact atRoot mem fun dir isDir => ⟨by simp [layoutDirs, isDir], by simp [isDir]⟩
    · exact atRoot mem fun dir isDir => ⟨by simp [layoutDirs, isDir], by simp [isDir]⟩
    · intro path isPath
      rw [(registryCandidates_removable candidate (List.mem_append_left _ mem)).1] at isPath
      cases isPath
    · intro path isPath
      rw [(registryCandidates_removable candidate (List.mem_append_right _ mem)).1] at isPath
      cases isPath
    · exact homed_of_mem_desktopIntegration mem

/-- What the layout has is covered by the root that it is found in, or is the unit. -/
theorem homed_of_mem_layout (mem : candidate ∈ layoutCandidates host request) :
    ∀ path ∈ candidate.path, Homed host request path ∨ host.os = .linux ∧ path = systemdUnit := by
  simp only [layoutCandidates, foundOn, List.mem_append] at mem
  rcases mem with ofPrefix | platform | legacy
  · rcases List.mem_map.mp ofPrefix with ⟨dir, isDir, rfl⟩
    intro path isPath
    cases isPath
    refine Or.inl ⟨dir, by simp [layoutDirs, Option.mem_toList.mp isDir], dir.below_refl, ?_⟩
    intro proper
    refine ⟨dir, mem_layoutRoots_of_proper proper ?_, List.prefix_refl _⟩
    simp [Option.mem_toList.mp isDir]
  · exact homed_of_mem_platform platform
  · rcases List.mem_map.mp legacy with ⟨hit, hitMem, rfl⟩
    have scanned := List.mem_of_mem_filter (List.fst_mem_of_mem_zipIdx hitMem)
    intro path isPath
    left
    rcases List.mem_append.mp scanned with ofExe | ofData
    · rcases List.mem_map.mp ofExe with ⟨dir, isDir, named⟩
      exact @homed_of_root host request dir _ ["data"]
        (by simp [layoutDirs, Option.mem_toList.mp isDir]) (by simp [Option.mem_toList.mp isDir])
        (congrArg some named.symm) path isPath
    · rcases List.mem_map.mp ofData with ⟨dir, isDir, named⟩
      exact @homed_of_root host request dir _ [appDataDirName]
        (by simp [layoutDirs, Option.mem_toList.mp isDir]) (by simp [Option.mem_toList.mp isDir])
        (congrArg some named.symm) path isPath

/-! ## What is left -/

theorem mem_collect_iff :
    candidate ∈ (collectCandidates host request receipt (foundOn host request)).1 ↔
      candidate ∈ recordedCandidates host receipt ∨ candidate ∈ layoutCandidates host request := by
  simp only [collectCandidates, recordedCandidates, layoutCandidates, List.mem_append, or_assoc]

/-- What is listed is what is left, as it can be carried. -/
theorem exists_left_of_mem_listed (mem : entry ∈ listedEntries host request receipt) :
    ∃ left ∈ leftOver host request receipt, ∃ covers,
      entry = { measureEntry left with coversSecret := covers } := by
  rcases List.mem_map.mp mem with ⟨kept, keptMem, rfl⟩
  rcases mem_collapseNested_iff.mp keptMem with ⟨left, leftMem, alone, rfl⟩
  exact ⟨left, List.mem_filter.mpr ⟨leftMem, alone⟩, _, rfl⟩

theorem exists_listed_of_mem_leftOver (mem : left ∈ leftOver host request receipt) :
    ∃ entry ∈ listedEntries host request receipt, ∃ covers,
      entry = { measureEntry left with coversSecret := covers } := by
  rcases List.mem_filter.mp mem with ⟨leftMem, alone⟩
  exact ⟨_, List.mem_map_of_mem (mem_collapseNested_iff.mpr ⟨left, leftMem, alone, rfl⟩), _, rfl⟩

/-- What is left is the place of a candidate, clean and such that a plan can carry it. -/
theorem exists_candidate_of_mem_leftOver (mem : left ∈ leftOver host request receipt)
    (onDisk : left.kind.onDisk = true) (named : left.path = some place) :
    place.display.components = place.components ∧
      ∃ candidate ∈ (collectCandidates host request receipt (foundOn host request)).1,
        candidate.kind.onDisk = true ∧ ∃ path ∈ candidate.path,
          path.absolutize host.os host.currentDir = some place := by
  have within := List.mem_of_mem_filter mem
  refine ⟨components_display_of_mem_inTier within onDisk named, ?_⟩
  rcases mem_inTier_iff.mp within with ⟨merged, mergedMem, rfl, -⟩
  rw [kind_promoteEntry] at onDisk
  rw [path_promoteEntry] at named
  rcases exists_mem_of_mem_dedupe mergedMem with ⟨first, firstMem, kind, samePath⟩
  rw [← kind] at onDisk
  rw [← samePath] at named
  rcases mem_probeExistence_iff.mp firstMem with ⟨candidate, candidateMem, probed⟩
  rw [kind_of_probeCandidate probed] at onDisk
  refine ⟨candidate, candidateMem, onDisk, ?_⟩
  cases candidatePath : candidate.path with
  | none =>
      rw [probeCandidate_unprobed (Or.inr candidatePath)] at probed
      cases probed
      cases candidatePath.symm.trans named
  | some path =>
      rcases probeCandidate_onDisk probed onDisk candidatePath with
        ⟨abs, unreadable, made, -, -, -, rfl⟩
      cases named
      exact ⟨path, rfl, made⟩

theorem promoteEntry_of_nameless {inner : List (PathBuf × PurgeTier)}
    (nameless : left.path = none) :
    promoteEntry inner left = left := by
  unfold promoteEntry
  split
  · next named => cases nameless.symm.trans named
  · rfl

/-- A file or directory without a path is left if it is of the tier. -/
theorem exists_nameless_iff :
    (∃ left ∈ leftOver host request receipt, left.kind.onDisk = true ∧ left.path = none) ↔
      ∃ candidate ∈ (collectCandidates host request receipt (foundOn host request)).1,
        candidate.kind.onDisk = true ∧ candidate.tier ≤ request.tier ∧ candidate.path = none := by
  constructor
  · rintro ⟨left, mem, onDisk, nameless⟩
    rcases mem_inTier_iff.mp (List.mem_of_mem_filter mem) with ⟨merged, mergedMem, rfl, within⟩
    rw [path_promoteEntry] at nameless
    rw [promoteEntry_of_nameless nameless] at onDisk within
    rcases mem_dedupeByPath_iff.mp mergedMem with ⟨-, here⟩ | ⟨key, first, rest, ofKey, rfl⟩
    · rcases mem_probeExistence_iff.mp here with ⟨candidate, candidateMem, probed⟩
      rw [kind_of_probeCandidate probed] at onDisk
      cases candidatePath : candidate.path with
      | none =>
          rw [probeCandidate_unprobed (Or.inr candidatePath)] at probed
          cases probed
          exact ⟨candidate, candidateMem, onDisk, within, candidatePath⟩
      | some path =>
          rcases probeCandidate_onDisk probed onDisk candidatePath with ⟨abs, _, -, -, -, -, rfl⟩
          cases nameless
    · rw [(foldl_merge_kind_path first rest).2] at nameless
      have keyed := key_of_itemsOf ofKey
      rw [Present.dedupeKey?, nameless] at keyed
      cases keyed
  · rintro ⟨candidate, mem, onDisk, within, nameless⟩
    have probed := @probeCandidate_unprobed host candidate (Or.inr nameless)
    have here : candidate.present candidate.path false ∈ dedupeByPath host (probeExistence host
        (collectCandidates host request receipt (foundOn host request)).1).1 :=
      mem_dedupeByPath_iff.mpr
        (Or.inl ⟨nameless, mem_probeExistence_iff.mpr ⟨candidate, mem, probed⟩⟩)
    refine ⟨candidate.present candidate.path false, List.mem_filter.mpr ⟨?_, ?_⟩, onDisk, nameless⟩
    · exact mem_inTier_iff.mpr ⟨_, here, (promoteEntry_of_nameless nameless).symm, within⟩
    · simp [standsAlone, parentIn, Candidate.present, nameless]

theorem InRoot.of_leads (mem : root ∈ layoutRoots host request)
    (leads : root.components <+: place.components) : InRoot host request place :=
  ⟨root, mem, isWithin_of_prefix leads⟩

/-- What a layout has lies in a root if the directory that it is found in is spelled as
it is. -/
theorem inRoot_of_homed (homed : Homed host request path ∨ host.os = .linux ∧ path = systemdUnit)
    (proper : ∀ dir ∈ layoutDirs request, dir.Below path → dir.Proper host.os)
    (made : path.absolutize host.os host.currentDir = some place) : InRoot host request place := by
  rcases homed with ⟨dir, listed, below, covered⟩ | ⟨isLinux, rfl⟩
  · have dirProper := proper dir listed below
    rcases covered dirProper with ⟨root, mem, leads⟩
    rw [(below.proper dirProper).eq_of_absolutize made]
    exact .of_leads mem leads
  · have unitProper : systemdUnit.Proper host.os := by
      rw [isLinux]
      exact proper_absolute (List.cons_ne_nil _ _)
    have rootProper : (absolute ["etc", "systemd", "system"]).Proper host.os := by
      rw [isLinux]
      exact proper_absolute (List.cons_ne_nil _ _)
    rw [unitProper.eq_of_absolutize made]
    refine .of_leads (List.mem_filter.mpr ⟨List.mem_append_right _ ?_, ?_⟩)
      (((absolute ["etc", "systemd", "system"]).below_join ["cloto.service"]).components rfl)
    · simp [isLinux]
    · simp [rootProper.isAbsolute, rootProper.inner]

/-- Every file and directory that is listed lies in a root exactly if those do that are
recorded outside of the data directory or found in a directory that is spelled otherwise. -/
theorem covered_iff : Covered host request receipt ↔ Housed host request receipt := by
  constructor
  · intro covered
    have all : ∀ place, Due host request receipt place → InRoot host request place := by
      rintro place ⟨left, mem, onDisk, named⟩
      rcases exists_listed_of_mem_leftOver mem with ⟨entry, entryMem, covers, rfl⟩
      rcases covered _ entryMem onDisk with ⟨path, isPath, root, rootMem, within⟩
      rcases Option.map_eq_some_iff.mp isPath with ⟨own, ownNamed, rfl⟩
      cases named.symm.trans ownNamed
      rw [isWithin_congr (exists_candidate_of_mem_leftOver mem onDisk named).1] at within
      exact ⟨root, rootMem, within⟩
    refine ⟨?_, fun _ _ _ _ _ place _ due _ => all place due,
      fun _ _ _ _ _ _ place _ due => all place due⟩
    intro candidate mem onDisk within nameless
    rcases exists_nameless_iff.mpr ⟨candidate, mem, onDisk, within, nameless⟩ with
      ⟨left, leftMem, leftDisk, leftNameless⟩
    rcases exists_listed_of_mem_leftOver leftMem with ⟨entry, entryMem, covers, rfl⟩
    rcases covered _ entryMem leftDisk with ⟨path, isPath, -⟩
    rcases Option.map_eq_some_iff.mp isPath with ⟨own, ownNamed, -⟩
    cases leftNameless.symm.trans ownNamed
  · intro housed entry mem onDisk
    rcases exists_left_of_mem_listed mem with ⟨left, leftMem, covers, rfl⟩
    have leftDisk : left.kind.onDisk = true := onDisk
    cases named : left.path with
    | none =>
        rcases exists_nameless_iff.mp ⟨left, leftMem, leftDisk, named⟩ with
          ⟨candidate, candidateMem, candidateDisk, within, nameless⟩
        exact absurd nameless (housed.named candidate candidateMem candidateDisk within)
    | some place =>
        rcases exists_candidate_of_mem_leftOver leftMem leftDisk named with
          ⟨same, candidate, candidateMem, candidateDisk, path, isPath, made⟩
        have due : Due host request receipt place := ⟨left, leftMem, leftDisk, named⟩
        have inRoot : InRoot host request place := by
          rcases mem_collect_iff.mp candidateMem with recorded | layout
          · by_cases inData : request.dataDir.Proper host.os ∧
              place.startsWith request.dataDir = true
            · exact .of_leads (mem_layoutRoots_of_proper inData.1 (by simp))
                (PathBuf.startsWith_iff.mp inData.2)
            · refine housed.recorded candidate recorded candidateDisk path isPath place made due ?_
              intro proper
              rw [not_and, Bool.not_eq_true] at inData
              exact inData proper
          · by_cases improper : ∃ dir ∈ layoutDirs request, dir.Below path ∧ ¬ dir.Proper host.os
            · exact housed.layout candidate layout candidateDisk path isPath improper place made due
            · refine inRoot_of_homed (homed_of_mem_layout layout path isPath) ?_ made
              intro dir listed below
              by_contra otherwise
              exact improper ⟨dir, listed, below, otherwise⟩
        rcases inRoot with ⟨root, rootMem, within⟩
        refine ⟨place.display, Option.map_eq_some_iff.mpr ⟨place, named, rfl⟩, root, rootMem, ?_⟩
        rw [isWithin_congr same]
        exact within

/-! ## Kinds -/

theorem PathBuf.Clean.display (isClean : path.Clean) : path.display.Clean := by
  intro piece mem
  rcases List.mem_map.mp mem with ⟨spelled, spelledMem, rfl⟩
  rcases isClean spelled spelledMem with ⟨name, rfl⟩
  exact ⟨_, rfl⟩

/-- A clean path has nothing after its last name. -/
theorem PathBuf.Clean.ending (isClean : path.Clean) : path.ending = .nothing := by
  have none : (path.pieces.reverse.takeWhile fun piece => piece = .empty ∨ piece = .dot) = [] := by
    rw [List.takeWhile_eq_nil_iff]
    intro some
    rcases isClean _ (List.mem_reverse.mp (List.getElem_mem some)) with ⟨name, named⟩
    simp [named]
  unfold PathBuf.ending
  dsimp only
  rw [if_pos none]

/-- A clean path leads to the place of its last name. -/
theorem reach_of_clean {platform : Platform} {tree : Links.Tree Name} (isClean : path.Clean) :
    reach platform tree path
      = (tree.locate platform.limit (path.way platform.os)).map fun own => ⟨own, true⟩ := by
  unfold reach
  rw [isClean.ending]
  cases tree.locate platform.limit (path.way platform.os) with
  | error stop => rfl
  | ok own => simp [Except.bind, Except.map]

theorem fits_iff {kind : PurgeKind} {node : Node Name} (onDisk : kind.onDisk = true) :
    fits kind node = true ↔ (kind = .dir → node ≠ .file) ∧ (kind = .file → node ≠ .dir) := by
  cases kind with
  | file | dir => cases node <;> simp [fits]
  | service | registry => cases onDisk

/-- What is there of what is listed is of its kind exactly if no file is named a directory
and no directory a file. -/
theorem fitting_iff :
    Fitting host request receipt limit unitFile machine ↔
      Kinded host request receipt limit machine := by
  have reached : ∀ left ∈ leftOver host request receipt, left.kind.onDisk = true →
      ∀ place ∈ left.path, reach ⟨host.os, limit, unitFile⟩ machine.tree place.display
        = (machine.tree.locate limit (place.way host.os)).map fun own => ⟨own, true⟩ := by
    intro left mem onDisk place named
    rcases exists_candidate_of_mem_leftOver mem onDisk named with
      ⟨same, candidate, -, -, path, -, made⟩
    rw [reach_of_clean (PathBuf.clean_of_absolutize made).display, PathBuf.way, PathBuf.way, same]
  constructor
  · intro fitting left mem onDisk path named place located
    rcases exists_listed_of_mem_leftOver mem with ⟨entry, entryMem, covers, rfl⟩
    have isReached := reached left mem onDisk path named
    rw [located] at isReached
    have fits := fitting _ entryMem onDisk path.display
      (Option.map_eq_some_iff.mpr ⟨path, named, rfl⟩) ⟨place, true⟩ isReached
    constructor
    · intro isDir isFile
      exact ((fits_iff onDisk).mp (fits .file isFile)).1 isDir rfl
    · intro isFile isDir
      exact ((fits_iff onDisk).mp (fits .dir isDir)).2 isFile rfl
  · intro kinded entry mem onDisk listed listedPath spot isReached node found
    rcases exists_left_of_mem_listed mem with ⟨left, leftMem, covers, rfl⟩
    have leftDisk : left.kind.onDisk = true := onDisk
    rcases Option.map_eq_some_iff.mp listedPath with ⟨path, named, rfl⟩
    rw [reached left leftMem leftDisk path named] at isReached
    cases located : machine.tree.locate limit (path.way host.os) with
    | error stop =>
        rw [located] at isReached
        cases isReached
    | ok place =>
        rw [located] at isReached
        cases isReached
        rcases kinded left leftMem leftDisk path named place located with ⟨noFile, noDir⟩
        refine (fits_iff onDisk).mpr ⟨?_, ?_⟩
        · rintro isDir rfl
          exact noFile isDir found
        · rintro isFile rfl
          exact noDir isFile found

/-- The executor refuses nothing of what the planner lists exactly if what is left lies in
the roots and is of its kind. -/
theorem accepted_iff_housed :
    Accepted host request receipt limit unitFile machine ↔
      Housed host request receipt ∧ Kinded host request receipt limit machine := by
  rw [accepted_iff, covered_iff, fitting_iff]

end ClotoCore.Defender
