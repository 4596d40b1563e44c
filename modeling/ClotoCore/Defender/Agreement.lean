import ClotoCore.Defender.Coverage
import ClotoCore.Defender.Execute
import ClotoCore.Defender.Footprint
import ClotoCore.Sequence.Sorted

/-!
# What the planner offers and the executor accepts

The executor accepts what the planner offers to remove exactly if every file and directory
lies in a root, as the two are written, and is still of its kind.  It keeps the planner's
order, with what holds the receipt last, exactly if no two files or directories are put in
order by a data directory that is not the real one.
-/

namespace ClotoCore.Defender

open ClotoCore.Encoding ClotoCore.Links ClotoCore.Sequence

/-- What the platform and the scan have found. -/
def foundOn (host : Host) (request : PlanRequest) : List Candidate :=
  platformCandidates host request.roots ++ legacyCandidates host request

/-- What the planner lists, before it is put in order. -/
def listedEntries (host : Host) (request : PlanRequest) (receipt : Option Receipt) :
    List PurgeEntry :=
  (collapseNested (inTier host request.tier
    (collectCandidates host request receipt (foundOn host request)).1)).1.map measureEntry

/-- The roots of the layout that a plan is made for. -/
def layoutRoots (host : Host) (request : PlanRequest) : List PathBuf :=
  fromProbe host.os request.dataDir request.installPrefix request.roots

/-- The executor refuses nothing of what the planner offers to remove, but for what it
says about the service. -/
def Accepted (host : Host) (request : PlanRequest) (receipt : Option Receipt) (limit : Nat)
    (unitFile : Option PathBuf) (machine : Machine) : Prop :=
  ∀ entry ∈ (buildPlan host request receipt).entries, entry.kind ≠ .service → ∀ reason,
    (executeEntry ⟨host.os, limit, unitFile⟩ (layoutRoots host request)
      (buildPlan host request receipt).tier machine entry none).2 ≠ .refused reason

/-- Each file and directory that is listed lies in a root. -/
def Covered (host : Host) (request : PlanRequest) (receipt : Option Receipt) : Prop :=
  ∀ entry ∈ listedEntries host request receipt, entry.kind.onDisk = true →
    ∃ path ∈ entry.path, ∃ root ∈ layoutRoots host request, isWithin host.os root path = true

/-- What is there of what is listed is of its kind, or a link. -/
def Fitting (host : Host) (request : PlanRequest) (receipt : Option Receipt) (limit : Nat)
    (unitFile : Option PathBuf) (machine : Machine) : Prop :=
  ∀ entry ∈ listedEntries host request receipt, entry.kind.onDisk = true → ∀ path ∈ entry.path,
    ∀ spot, reach ⟨host.os, limit, unitFile⟩ machine.tree path = .ok spot →
      ∀ node, machine.tree.find spot.place = some node → fits entry.kind node = true

variable {host : Host} {request : PlanRequest} {receipt : Option Receipt} {limit : Nat}
  {unitFile : Option PathBuf} {machine : Machine} {entry : PurgeEntry} {path root : PathBuf}
  {left : Present} {candidate : Candidate} {roots : List PathBuf} {platform : Platform}

theorem mem_plan_iff :
    entry ∈ (buildPlan host request receipt).entries ↔
      entry ∈ listedEntries host request receipt := by
  rw [buildPlan, mem_entries_iff, listedEntries, List.mem_map]
  constructor
  · rintro ⟨kept, mem, rfl⟩
    exact ⟨kept, mem, rfl⟩
  · rintro ⟨kept, mem, rfl⟩
    exact ⟨kept, mem, rfl⟩

/-- What is listed was a candidate, with its kind and within the tier. -/
theorem exists_probed_of_mem_listed (mem : entry ∈ listedEntries host request receipt) :
    ∃ left ∈ dedupeByPath host (probeExistence host
        (collectCandidates host request receipt (foundOn host request)).1).1,
      left.kind = entry.kind ∧ left.key = entry.key ∧ entry.path = left.path.map PathBuf.display ∧
        request.tier.includes entry.tier = true := by
  rcases List.mem_map.mp mem with ⟨kept, keptMem, rfl⟩
  rcases mem_collapseNested_iff.mp keptMem with ⟨raised, raisedMem, -, rfl⟩
  rcases mem_inTier_iff.mp raisedMem with ⟨left, leftMem, rfl, within⟩
  rcases @promoteEntry_eq left (innerPaths (dedupeByPath host (probeExistence host
    (collectCandidates host request receipt (foundOn host request)).1).1)) with ⟨tier, raisedEq⟩
  refine ⟨left, leftMem, ?_, ?_, ?_, PurgeTier.includes_iff.mpr within⟩
  · exact kind_promoteEntry.symm
  · rw [raisedEq]
    rfl
  · rw [raisedEq]
    rfl

/-- A path that is listed is clean and not that of a filesystem. -/
theorem clean_of_mem_listed (mem : entry ∈ listedEntries host request receipt)
    (onDisk : entry.kind.onDisk = true) (named : entry.path = some path) :
    path.isFilesystemRoot = false ∧ .parentDir ∉ path.components := by
  rcases exists_probed_of_mem_listed mem with ⟨left, leftMem, kind, -, leftPath, -⟩
  rcases exists_mem_of_mem_dedupe leftMem with ⟨first, firstMem, firstKind, firstPath⟩
  rw [named, ← firstPath] at leftPath
  rcases Option.map_eq_some_iff.mp leftPath.symm with ⟨raw, rawNamed, rfl⟩
  have firstDisk : first.kind.onDisk = true := by
    rw [firstKind, kind]
    exact onDisk
  have same := PathBuf.components_display (representable_of_mem_probe firstMem firstDisk rawNamed)
  rcases mem_probeExistence_iff.mp firstMem with ⟨candidate, -, probed⟩
  rw [kind_of_probeCandidate probed] at firstDisk
  cases candidatePath : candidate.path with
  | none =>
      rw [probeCandidate_unprobed (Or.inr candidatePath)] at probed
      cases probed
      cases candidatePath.symm.trans rawNamed
  | some original =>
      rcases probeCandidate_onDisk probed firstDisk candidatePath with
        ⟨abs, unreadable, made, inner, -, -, rfl⟩
      cases rawNamed
      rw [PathBuf.isFilesystemRoot, same]
      exact ⟨inner, (PathBuf.clean_of_absolutize made).parentDir_notMem⟩

/-! ## What lies in a root -/

theorem rootDir_mem_iff : .rootDir ∈ path.components ↔ path.rooted = true := by
  simp only [PathBuf.components, PathBuf.anchor, List.mem_append, List.mem_map,
    List.mem_filterMap]
  constructor
  · rintro (((⟨name, -, impossible⟩ | root) | current) | ⟨piece, -, isComponent⟩)
    · cases impossible
    · split at root
      · next rooted => exact rooted
      · cases root
    · split at current
      · simp at current
      · cases current
    · cases piece <;> cases isComponent
  · intro rooted
    rw [if_pos rooted]
    exact Or.inl (Or.inl (Or.inr List.mem_cons_self))

theorem drive_mem_iff : (∃ name, .drive name ∈ path.components) ↔ path.drive.isSome = true := by
  simp only [PathBuf.components, PathBuf.anchor, List.mem_append, List.mem_map,
    List.mem_filterMap]
  constructor
  · rintro ⟨name, ((⟨drive, isDrive, -⟩ | root) | current) | ⟨piece, -, isComponent⟩⟩
    · rw [Option.mem_toList] at isDrive
      rw [isDrive]
      rfl
    · split at root
      · simp at root
      · cases root
    · split at current
      · simp at current
      · cases current
    · cases piece <;> cases isComponent
  · intro isSome
    rcases Option.isSome_iff_exists.mp isSome with ⟨name, drive⟩
    exact ⟨name, Or.inl (Or.inl (Or.inl ⟨name, Option.mem_toList.mpr drive, rfl⟩))⟩

/-- What lies in a root has all components of the root but for the case. -/
theorem exists_mem_of_isWithin {os : Os} (within : isWithin os root path = true)
    {component : Component} (mem : component ∈ root.components) :
    ∃ other ∈ path.components, other.fold os = component.fold os := by
  have folded := (isWithin_iff.mp within).subset (List.mem_map_of_mem mem)
  exact List.mem_map.mp folded

/-- What lies in a root is absolute. -/
theorem isAbsolute_of_isWithin {os : Os} (isAbs : root.isAbsolute os = true)
    (within : isWithin os root path = true) : path.isAbsolute os = true := by
  simp only [PathBuf.isAbsolute, Bool.and_eq_true, Bool.or_eq_true] at isAbs ⊢
  refine ⟨?_, isAbs.2.imp_right fun drive => ?_⟩
  · rcases exists_mem_of_isWithin within (rootDir_mem_iff.mpr isAbs.1) with ⟨other, mem, folded⟩
    cases other with
    | rootDir => exact rootDir_mem_iff.mp mem
    | drive name | curDir | parentDir | normal name => cases folded
  · rcases drive_mem_iff.mpr drive with ⟨name, driveMem⟩
    rcases exists_mem_of_isWithin within driveMem with ⟨other, mem, folded⟩
    cases other with
    | drive name => exact drive_mem_iff.mp ⟨name, mem⟩
    | rootDir | curDir | parentDir | normal name => cases folded

/-- The executor acts on a clean path exactly if it lies in a root. -/
theorem admittedPath_of_clean_iff {os : Os} (absolute : ∀ root ∈ roots, root.isAbsolute os = true)
    (inner : path.isFilesystemRoot = false) (clean : .parentDir ∉ path.components) :
    admittedPath os roots (some path) = .ok path ↔
      ∃ root ∈ roots, isWithin os root path = true := by
  rw [admittedPath_eq_ok_iff, checkedPath_eq_ok_iff]
  constructor
  · exact And.right
  · rintro ⟨root, mem, within⟩
    have isAbs := isAbsolute_of_isWithin (absolute root mem) within
    have rooted : path.rooted = true := (Bool.and_eq_true_iff.mp isAbs).1
    exact ⟨⟨rfl, by simp [PathBuf.isBlank, rooted], isAbs, inner, clean⟩, root, mem, within⟩

theorem eq_of_admittedPath {os : Os} {named : Option PathBuf}
    (admitted : admittedPath os roots named = .ok path) : named = some path :=
  (checkedPath_eq_ok_iff.mp (admittedPath_eq_ok_iff.mp admitted).1).1

/-! ## What is refused -/

/-- What is at a path is refused exactly if it is not of the kind. -/
theorem removePath_not_refused_iff {tree : Links.Tree Name} {kind : PurgeKind} :
    (∀ reason, (removePath platform tree path kind none).2 ≠ .refused reason) ↔
      ∀ spot, reach platform tree path = .ok spot → ∀ node, tree.find spot.place = some node →
        fits kind node = true := by
  unfold removePath
  cases reach platform tree path with
  | error stop => cases stop <;> simp
  | ok spot =>
      dsimp only
      constructor
      · intro unrefused other same node found
        cases same
        rw [found] at unrefused
        dsimp only at unrefused
        by_cases isFit : fits kind node = true
        · exact isFit
        · rw [if_neg isFit] at unrefused
          exact absurd rfl (unrefused .typeChanged)
      · intro all reason
        cases found : tree.find spot.place with
        | none => simp
        | some node =>
            dsimp only
            rw [if_pos (all spot rfl node found)]
            unfold removeAt
            dsimp only
            split
            · simp
            · simp

/-- The registry keys that the planner knows. -/
def registryCandidates : List Candidate :=
  uninstallRegistryCandidates ++ productRegistryCandidates

theorem registryCandidates_removable :
    ∀ candidate ∈ registryCandidates, candidate.path = none ∧
      (candidate.key.filter fun key => !isBlank key).any isRemovableKey = true := by
  decide +kernel

theorem kind_of_mem_probed {id : String} {kind : PurgeKind} {dir : Option PathBuf}
    {names : List String} {tier : PurgeTier} (mem : candidate ∈ probed id kind dir names tier) :
    candidate.kind = kind := by
  rcases List.mem_map.mp mem with ⟨path, -, rfl⟩
  rfl

theorem onDisk_of_mem_desktopIntegration {probe : ProbeRoots}
    (mem : candidate ∈ desktopIntegrationCandidates host probe) :
    candidate.kind.onDisk = true := by
  unfold desktopIntegrationCandidates at mem
  split at mem
  · simp only [List.mem_append, or_assoc] at mem
    rcases mem with mem | mem | mem | mem
    all_goals
      rw [kind_of_mem_probed mem]
      rfl
  · split at mem
    · cases mem
    · rcases List.mem_cons.mp mem with rfl | icon
      · rfl
      · rcases List.mem_map.mp icon with ⟨indexed, -, rfl⟩
        rfl
  · cases mem

/-- What the platform has that is not on the disk are registry keys of Windows. -/
theorem onDisk_or_registry_of_mem_platform {probe : ProbeRoots}
    (mem : candidate ∈ platformCandidates host probe) :
    candidate.kind.onDisk = true ∨ (host.os = .windows ∧ candidate ∈ registryCandidates) := by
  unfold platformCandidates at mem
  split at mem
  · left
    simp only [List.mem_append, or_assoc] at mem
    rcases mem with mem | mem | mem | mem | mem
    all_goals
      rw [kind_of_mem_probed mem]
      rfl
  · left
    simp only [List.mem_cons, List.mem_append, or_assoc] at mem
    rcases mem with rfl | mem | mem | mem
    · rfl
    · rw [kind_of_mem_probed mem]
      rfl
    · rw [kind_of_mem_probed mem]
      rfl
    · exact onDisk_of_mem_desktopIntegration mem
  · next isWindows =>
    simp only [List.mem_append, identifierContainerCandidates, or_assoc] at mem
    rcases mem with mem | mem | mem | mem | mem
    · left
      rw [kind_of_mem_probed mem]
      rfl
    · left
      rw [kind_of_mem_probed mem]
      rfl
    · exact Or.inr ⟨isWindows, List.mem_append_left _ mem⟩
    · exact Or.inr ⟨isWindows, List.mem_append_right _ mem⟩
    · exact Or.inl (onDisk_of_mem_desktopIntegration mem)

/-- The registry keys among the candidates are those that the planner knows. -/
theorem mem_registryCandidates_of_mem_collect
    (mem : candidate ∈ (collectCandidates host request receipt (foundOn host request)).1)
    (kind : candidate.kind = .registry) :
    host.os = .windows ∧ candidate ∈ registryCandidates := by
  simp only [collectCandidates, foundOn, List.mem_append, or_assoc] at mem
  rcases mem with recorded | ofPrefix | platform | legacy
  · rcases List.mem_flatMap.mp recorded with ⟨entry, -, ofEntry⟩
    rcases List.mem_cons.mp ofEntry with rfl | sidecar
    · cases recordedKind : entry.kind with
      | file | dir | service =>
          rw [ReceiptEntry.candidate, recordedKind] at kind
          cases kind
    · unfold sidecarCandidates at sidecar
      split at sidecar
      · split at sidecar
        · rcases List.mem_map.mp sidecar with ⟨path, -, rfl⟩
          cases kind
        · cases sidecar
      · cases sidecar
  · rcases List.mem_map.mp ofPrefix with ⟨path, -, rfl⟩
    cases kind
  · rcases onDisk_or_registry_of_mem_platform platform with onDisk | known
    · rw [kind] at onDisk
      cases onDisk
    · exact known
  · rcases List.mem_map.mp legacy with ⟨hit, -, rfl⟩
    cases kind

/-- A registry key that is listed is one that may be removed, on Windows. -/
theorem removable_of_mem_listed (mem : entry ∈ listedEntries host request receipt)
    (kind : entry.kind = .registry) :
    host.os = .windows ∧ (entry.key.filter fun key => !isBlank key).any isRemovableKey = true := by
  rcases exists_probed_of_mem_listed mem with ⟨left, leftMem, leftKind, key, -, -⟩
  rw [kind] at leftKind
  have ofProbe : ∀ probed ∈ (probeExistence host
      (collectCandidates host request receipt (foundOn host request)).1).1,
      probed.kind = .registry → host.os = .windows ∧ probed.path = none ∧
        (probed.key.filter fun key => !isBlank key).any isRemovableKey = true := by
    intro probed probedMem probedKind
    rcases mem_probeExistence_iff.mp probedMem with ⟨candidate, candidateMem, isProbed⟩
    rw [kind_of_probeCandidate isProbed] at probedKind
    rcases mem_registryCandidates_of_mem_collect candidateMem probedKind with ⟨isWindows, known⟩
    rcases registryCandidates_removable candidate known with ⟨unnamed, removable⟩
    rw [probeCandidate_unprobed (Or.inr unnamed)] at isProbed
    cases isProbed
    exact ⟨isWindows, unnamed, removable⟩
  rcases mem_dedupeByPath_iff.mp leftMem with ⟨-, here⟩ | ⟨own, first, rest, ofKey, rfl⟩
  · rcases ofProbe left here leftKind with ⟨isWindows, -, removable⟩
    rw [← key]
    exact ⟨isWindows, removable⟩
  · -- What is merged has a path, and a registry key has none.
    have firstMem : first ∈ sameKey host own (probeExistence host
        (collectCandidates host request receipt (foundOn host request)).1).1 := by
      rw [ofKey]
      exact List.mem_cons_self
    rw [(foldl_merge_kind_path first rest).1] at leftKind
    rcases ofProbe first (List.mem_filter.mp firstMem).1 leftKind with ⟨-, unnamed, -⟩
    have keyed := (List.mem_filter.mp firstMem).2
    simp [Present.dedupeKey?, unnamed] at keyed

theorem executeEntry_outcome {tier : PurgeTier} {fault : Option (Region Name)}
    (included : tier.includes entry.tier = true) (onDisk : entry.kind.onDisk = true) :
    (executeEntry platform roots tier machine entry fault).2
      = match admittedPath platform.os roots entry.path with
        | .error reason => .refused reason
        | .ok path => (removePath platform machine.tree path entry.kind fault).2 := by
  unfold executeEntry
  rw [if_pos included]
  cases kind : entry.kind with
  | file | dir =>
      dsimp only
      cases admittedPath platform.os roots entry.path with
      | error reason => rfl
      | ok path => rfl
  | service | registry =>
      rw [kind] at onDisk
      cases onDisk

/-- A file or directory is accepted exactly if its path is admitted and what is there is of
its kind. -/
theorem executeEntry_not_refused_iff {tier : PurgeTier}
    (included : tier.includes entry.tier = true) (onDisk : entry.kind.onDisk = true) :
    (∀ reason, (executeEntry platform roots tier machine entry none).2 ≠ .refused reason) ↔
      ∃ path, admittedPath platform.os roots entry.path = .ok path ∧
        ∀ spot, reach platform machine.tree path = .ok spot → ∀ node,
          machine.tree.find spot.place = some node → fits entry.kind node = true := by
  rw [executeEntry_outcome included onDisk]
  cases admitted : admittedPath platform.os roots entry.path with
  | error reason =>
      constructor
      · intro unrefused
        exact absurd rfl (unrefused reason)
      · rintro ⟨path, impossible, -⟩
        cases impossible
  | ok path =>
      dsimp only
      rw [removePath_not_refused_iff]
      constructor
      · intro fitting
        exact ⟨path, rfl, fitting⟩
      · rintro ⟨other, same, fitting⟩
        cases same
        exact fitting

theorem executeEntry_registry_not_refused {tier : PurgeTier} (onWindows : platform.os = .windows)
    (included : tier.includes entry.tier = true) (kind : entry.kind = .registry)
    (removable : (entry.key.filter fun key => !isBlank key).any isRemovableKey = true)
    (reason : Refusal) :
    (executeEntry platform roots tier machine entry none).2 ≠ .refused reason := by
  unfold executeEntry removeRegistry
  rw [if_pos included, kind]
  dsimp only
  rcases (Option.any_eq_true _ _).mp removable with ⟨key, keyed, isRemovable⟩
  rw [keyed]
  dsimp only
  rw [if_neg (by simp [isRemovable]), if_neg (by simp [onWindows])]
  unfold deleteRegistryKey
  split
  · simp
  · split
    · simp
    · simp

theorem isAbsolute_of_mem_layoutRoots (mem : root ∈ layoutRoots host request) :
    root.isAbsolute host.os = true := by
  have kept := (List.mem_filter.mp mem).2
  exact (Bool.and_eq_true_iff.mp kept).1

theorem tier_buildPlan : (buildPlan host request receipt).tier = request.tier :=
  rfl

/-- The executor refuses nothing that the planner lists exactly if every file and
directory lies in a root and is of its kind. -/
theorem accepted_iff :
    Accepted host request receipt limit unitFile machine ↔
      Covered host request receipt ∧ Fitting host request receipt limit unitFile machine := by
  unfold Accepted
  rw [tier_buildPlan]
  have includes : ∀ entry ∈ listedEntries host request receipt,
      request.tier.includes entry.tier = true := by
    intro entry mem
    rcases exists_probed_of_mem_listed mem with ⟨-, -, -, -, -, included⟩
    exact included
  constructor
  · intro accepted
    have admitted : ∀ entry ∈ listedEntries host request receipt, entry.kind.onDisk = true →
        ∃ path, admittedPath host.os (layoutRoots host request) entry.path = .ok path ∧
          ∀ spot, reach ⟨host.os, limit, unitFile⟩ machine.tree path = .ok spot → ∀ node,
            machine.tree.find spot.place = some node → fits entry.kind node = true := by
      intro entry mem onDisk
      have notService : entry.kind ≠ .service := by
        intro kind
        rw [kind] at onDisk
        cases onDisk
      have unrefused := accepted entry (mem_plan_iff.mpr mem) notService
      rw [executeEntry_not_refused_iff (includes entry mem) onDisk] at unrefused
      exact unrefused
    constructor
    · intro entry mem onDisk
      rcases admitted entry mem onDisk with ⟨path, isAdmitted, -⟩
      have named := eq_of_admittedPath isAdmitted
      rcases clean_of_mem_listed mem onDisk named with ⟨inner, clean⟩
      rw [named, admittedPath_of_clean_iff (fun _ => isAbsolute_of_mem_layoutRoots) inner clean]
        at isAdmitted
      exact ⟨path, named, isAdmitted⟩
    · intro entry mem onDisk path named
      rcases admitted entry mem onDisk with ⟨other, isAdmitted, fitting⟩
      cases (eq_of_admittedPath isAdmitted).symm.trans named
      exact fitting
  · rintro ⟨covered, fitting⟩ entry planned notService reason
    have mem := mem_plan_iff.mp planned
    by_cases onDisk : entry.kind.onDisk = true
    · rcases covered entry mem onDisk with ⟨path, named, inRoot⟩
      rcases clean_of_mem_listed mem onDisk named with ⟨inner, clean⟩
      refine (executeEntry_not_refused_iff (includes entry mem) onDisk).mpr ⟨path, ?_, ?_⟩ reason
      · rw [named, admittedPath_of_clean_iff (fun _ => isAbsolute_of_mem_layoutRoots) inner clean]
        exact inRoot
      · exact fitting entry mem onDisk path named
    · have kind : entry.kind = .registry := by
        cases kind : entry.kind with
        | registry => rfl
        | service => exact absurd kind notService
        | file | dir =>
            rw [kind] at onDisk
            exact absurd rfl onDisk
      rcases removable_of_mem_listed mem kind with ⟨onWindows, removable⟩
      exact executeEntry_registry_not_refused onWindows (includes entry mem) kind removable reason

end ClotoCore.Defender
