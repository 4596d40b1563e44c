import ClotoCore.Defender.Stages

/-!
# What a plan leaves alone

A plan removes a directory only where it covers everything that the planner sees in it.
What the planner refuses is not seen: a directory around it is removed unless something
else in the directory is above the tier.
-/

namespace ClotoCore.Defender

open ClotoCore.Lookup

/-- A candidate, or an entry of the receipt whose path is not in it, names a place on the
disk, and is of a tier. -/
inductive Names (host : Host) (request : PlanRequest) (receipt : Option Receipt)
    (found : List Candidate) : PathBuf → PurgeTier → Prop where
  | candidate {candidate : Candidate} {path real : PathBuf}
      (mem : candidate ∈ (collectCandidates host request receipt found).1)
      (onDisk : candidate.kind.onDisk = true) (named : candidate.path = some path)
      (there : path.lexical host.os host.currentDir = some real) :
      Names host request receipt found real candidate.tier
  | unexpressed {entry : ReceiptEntry} {original real : PathBuf}
      (mem : entry ∈ unexpressed receipt) (onDisk : entry.kind.purgeKind.onDisk = true)
      (recorded : entry.path = some (recordPath original).1)
      (lossy : (recordPath original).2 = true)
      (there : original.lexical host.os host.currentDir = some real) :
      Names host request receipt found real (classify entry.id)

/-- A place on the disk that is named by something above the requested tier. -/
def IsAbove (host : Host) (request : PlanRequest) (receipt : Option Receipt)
    (found : List Candidate) (real : PathBuf) : Prop :=
  ∃ tier, Names host request receipt found real tier ∧ host.stat real ≠ .missing ∧
    request.tier < tier

/-- No directory that the plan removes has in it what is above the tier or what the plan
says is left alone. -/
structure LeavesAlone (host : Host) (request : PlanRequest) (receipt : Option Receipt)
    (found : List Candidate) (plan : PurgePlan) : Prop where
  above : ∀ entry ∈ plan.entries, entry.kind = .dir → ∀ dir ∈ entry.path, ∀ real,
    IsAbove host request receipt found real → real.startsWith dir = false
  skipped : ∀ entry ∈ plan.entries, entry.kind = .dir → ∀ dir ∈ entry.path,
    ∀ other ∈ plan.skipped, other.reason = .aboveTier ∨ other.reason = .unsafePath →
      ∀ path ∈ other.path, path.isStrictDescendant dir = false

/-- What is refused before a plan is made. -/
def refused (host : Host) (request : PlanRequest) (receipt : Option Receipt)
    (found : List Candidate) : List SkippedEntry :=
  let collected := collectCandidates host request receipt found
  (collected.2 ++ (probeExistence host collected.1).2).filter fun entry =>
    entry.reason = .unsafePath

/-- The candidates that are there, or need not be. -/
abbrev presentOf (host : Host) (request : PlanRequest) (receipt : Option Receipt)
    (found : List Candidate) : List Present :=
  (probeExistence host (collectCandidates host request receipt found).1).1

/-- In each directory candidate that has in it what is above the tier or refused, a
candidate above the tier is seen. -/
def Seen (host : Host) (request : PlanRequest) (receipt : Option Receipt)
    (found : List Candidate) : Prop :=
  ∀ dir, NamedDir host (presentOf host request receipt found) dir →
    ((∃ real, IsAbove host request receipt found real ∧ real.startsWith dir = true) ∨
      ∃ entry ∈ refused host request receipt found, ∃ path ∈ entry.path,
        path.isStrictDescendant dir = true) →
    SeesAbove host request.tier (presentOf host request receipt found) dir

/-- What is not on disk is named by a text. -/
def Worded (candidates : List Candidate) : Prop :=
  ∀ candidate ∈ candidates, candidate.kind.onDisk = false →
    ∀ path ∈ candidate.path, path.display = path

variable {host : Host} {request : PlanRequest} {receipt : Option Receipt} {found : List Candidate}
  {entry : PurgeEntry} {dir path : PathBuf}

theorem mem_entries_iff :
    entry ∈ (planOf host request receipt found).entries ↔
      ∃ kept ∈ (collapseNested (inTier host request.tier
        (collectCandidates host request receipt found).1)).1, entry = measureEntry kept := by
  simp only [planOf, finishPlan, orderForRemoval, (List.mergeSort_perm ..).mem_iff, List.mem_map,
    inTier, eq_comm]

/-- What is left in the tier has a path that can be carried, or is named by a text. -/
theorem components_display_of_mem_dedupe {candidates : List Candidate} {left : Present}
    (worded : Worded candidates)
    (mem : left ∈ dedupeByPath host (probeExistence host candidates).1)
    (named : left.path = some path) : path.display.components = path.components := by
  rcases exists_mem_of_mem_dedupe mem with ⟨first, firstMem, kind, samePath⟩
  rw [named] at samePath
  by_cases onDisk : first.kind.onDisk = true
  · exact PathBuf.components_display (representable_of_mem_probe firstMem onDisk samePath)
  · rcases mem_probeExistence_iff.mp firstMem with ⟨candidate, candidateMem, probed⟩
    rw [kind_of_probeCandidate probed, Bool.not_eq_true] at onDisk
    rw [probeCandidate_unprobed (Or.inl onDisk)] at probed
    cases probed
    rw [worded candidate candidateMem onDisk path samePath]

/-- The directories in the tier can be carried by a plan. -/
theorem components_display_of_mem_dirsOf {candidates : List Candidate}
    (mem : dir ∈ dirsOf (inTier host request.tier candidates)) :
    dir.display.components = dir.components := by
  rcases namedDir_iff.mp (mem_dirsOf_inTier_iff.mp mem).1 with ⟨left, leftMem, kind, named⟩
  rcases exists_mem_of_mem_dedupe leftMem with ⟨first, firstMem, firstKind, firstPath⟩
  apply PathBuf.components_display
  apply representable_of_mem_probe firstMem
  · rw [firstKind, kind]
    rfl
  · rw [firstPath]
    exact named

/-- A directory of a plan is one of the directories in the tier, with its components. -/
theorem exists_dir_of_mem_entries (mem : entry ∈ (planOf host request receipt found).entries)
    (kind : entry.kind = .dir) (named : entry.path = some dir) :
    ∃ raw, raw ∈ dirsOf (inTier host request.tier
      (collectCandidates host request receipt found).1) ∧ dir.components = raw.components := by
  rcases mem_entries_iff.mp mem with ⟨kept, keptMem, rfl⟩
  rcases mem_collapseNested_iff.mp keptMem with ⟨left, leftMem, -, rfl⟩
  rcases Option.map_eq_some_iff.mp named with ⟨raw, rawNamed, rfl⟩
  have isDir := mem_dirsOf_iff.mpr ⟨left, leftMem, kind, rawNamed⟩
  exact ⟨raw, isDir, components_display_of_mem_dirsOf isDir⟩

/-- A directory in the tier lies in a directory of the plan. -/
theorem exists_entry_of_mem_dirsOf
    (mem : dir ∈ dirsOf (inTier host request.tier
      (collectCandidates host request receipt found).1)) :
    ∃ entry ∈ (planOf host request receipt found).entries, entry.kind = .dir ∧
      ∃ outer ∈ entry.path, dir.startsWith outer = true := by
  rcases mem_dirsOf_iff.mp mem with ⟨left, leftMem, kind, named⟩
  rcases exists_standsAlone leftMem named with
    ⟨outer, outerMem, alone, outerKind, raw, outerNamed, within⟩
  have isDir : outer.kind = .dir := by
    rcases outerKind with rfl | isDir
    · exact kind
    · exact isDir
  have carried := components_display_of_mem_dirsOf
    (mem_dirsOf_iff.mpr ⟨outer, outerMem, isDir, outerNamed⟩)
  refine ⟨_, mem_entries_iff.mpr
    ⟨_, mem_collapseNested_iff.mpr ⟨outer, outerMem, alone, rfl⟩, rfl⟩, isDir, raw.display, ?_, ?_⟩
  · exact Option.map_eq_some_iff.mpr ⟨raw, outerNamed, rfl⟩
  · rw [PathBuf.startsWith_congr rfl carried]
    exact within

/-- What is probed is not left out for its tier. -/
theorem reason_of_probeCandidate {candidate : Candidate} {skipped : SkippedEntry}
    (probed : probeCandidate host candidate = .inr skipped) :
    skipped.reason = .unsafePath ∨ skipped.reason = .absent := by
  unfold probeCandidate at probed
  split at probed
  · split at probed
    · cases probed
      exact Or.inl rfl
    · split at probed
      · cases probed
        exact Or.inl rfl
      · split at probed
        · cases probed
          exact Or.inl rfl
        · split at probed
          · cases probed
          · cases probed
          · cases probed
            exact Or.inr rfl
  · cases probed

theorem mem_skipped_iff {other : SkippedEntry} :
    other ∈ (planOf host request receipt found).skipped ↔
      other ∈ (collectCandidates host request receipt found).2 ∨
        other ∈ (probeExistence host (collectCandidates host request receipt found).1).2 ∨
        (∃ left ∈ promoteContainers (dedupeByPath host (presentOf host request receipt found)),
          request.tier < left.tier ∧ other = ⟨left.id, .aboveTier, left.path.map PathBuf.display⟩) ∨
        other ∈ (collapseNested (inTier host request.tier
          (collectCandidates host request receipt found).1)).2 := by
  have filtered : other ∈ (filterByTier request.tier
      (promoteContainers (dedupeByPath host (presentOf host request receipt found)))).2 ↔
        ∃ left ∈ promoteContainers (dedupeByPath host (presentOf host request receipt found)),
          request.tier < left.tier ∧
            other = ⟨left.id, .aboveTier, left.path.map PathBuf.display⟩ := by
    simp only [filterByTier, List.mem_map, List.mem_filter, Bool.not_eq_true', and_assoc,
      ← Bool.not_eq_true, PurgeTier.includes_iff, not_le, @eq_comm _ other]
  rw [← filtered]
  simp only [planOf, finishPlan, List.mem_append, inTier, or_assoc]

theorem reason_of_collect {other : SkippedEntry}
    (mem : other ∈ (collectCandidates host request receipt found).2) :
    other.reason = .unsafePath := by
  rcases List.mem_map.mp mem with ⟨entry, -, rfl⟩
  rfl

theorem reason_of_collapse {entries : List Present} {other : SkippedEntry}
    (mem : other ∈ (collapseNested entries).2) : other.reason = .coveredByParent := by
  rcases List.mem_map.mp mem with ⟨entry, -, rfl⟩
  rfl

theorem reason_of_probe {candidates : List Candidate} {other : SkippedEntry}
    (mem : other ∈ (probeExistence host candidates).2) :
    other.reason = .unsafePath ∨ other.reason = .absent := by
  rcases List.mem_filterMap.mp mem with ⟨candidate, -, probed⟩
  exact reason_of_probeCandidate (Sum.getRight?_eq_some_iff.mp probed)

/-- What is refused is what a plan skips as unsafe. -/
theorem mem_refused_iff {other : SkippedEntry} :
    other ∈ refused host request receipt found ↔
      other ∈ (planOf host request receipt found).skipped ∧ other.reason = .unsafePath := by
  simp only [refused, List.mem_filter, List.mem_append, decide_eq_true_eq, mem_skipped_iff]
  constructor
  · rintro ⟨early | probed, isUnsafe⟩
    · exact ⟨Or.inl early, isUnsafe⟩
    · exact ⟨Or.inr (Or.inl probed), isUnsafe⟩
  · rintro ⟨early | probed | ⟨left, -, -, rfl⟩ | covered, isUnsafe⟩
    · exact ⟨Or.inl early, isUnsafe⟩
    · exact ⟨Or.inr probed, isUnsafe⟩
    · cases isUnsafe
    · cases (reason_of_collapse covered).symm.trans isUnsafe

/-- In a directory in the tier there is no entry that is left out for its tier. -/
theorem not_inside_of_above {left : Present}
    (isDir : dir ∈ dirsOf (inTier host request.tier
      (collectCandidates host request receipt found).1))
    (mem : left ∈ promoteContainers (dedupeByPath host (presentOf host request receipt found)))
    (above : request.tier < left.tier) (named : left.path = some path) :
    path.isStrictDescendant dir = false := by
  rw [Bool.eq_false_iff]
  intro strict
  have all := not_seesAbove_iff.mp (mem_dirsOf_inTier_iff.mp isDir).2
  rcases List.mem_map.mp mem with ⟨survivor, survivorMem, rfl⟩
  rw [path_promoteEntry] at named
  have own := all survivor survivorMem path named (Or.inr strict)
  apply absurd above
  rw [not_lt]
  by_cases kind : survivor.kind = .dir
  · rw [promoteEntry_dir_le_iff kind named]
    refine ⟨own, ?_⟩
    intro inner innerMem deeper
    rcases mem_innerPaths_iff.mp innerMem with ⟨other, otherMem, otherNamed, tiers⟩
    rw [← tiers]
    apply all other otherMem inner.1 otherNamed
    exact Or.inr (PathBuf.isStrictDescendant_of_startsWith deeper
      (PathBuf.isStrictDescendant_iff.mp strict).2)
  · have same : promoteEntry (innerPaths (dedupeByPath host
        (presentOf host request receipt found))) survivor = survivor := by
      unfold promoteEntry
      split
      · next isDir _ => exact absurd isDir kind
      · rfl
    rw [same]
    exact own

/-- A plan leaves alone what is above its tier, and what it says that it leaves alone, if
and only if wherever the former is or the latter was refused in a directory candidate,
the planner sees something above the tier in that directory. -/
theorem leavesAlone_iff (worded : Worded (collectCandidates host request receipt found).1) :
    LeavesAlone host request receipt found (planOf host request receipt found) ↔
      Seen host request receipt found := by
  constructor
  · intro leaves dir named bad
    by_contra unseen
    rcases exists_entry_of_mem_dirsOf (mem_dirsOf_inTier_iff.mpr ⟨named, unseen⟩) with
      ⟨entry, mem, kind, outer, outerNamed, within⟩
    rcases bad with ⟨real, isAbove, inside⟩ | ⟨other, otherMem, path, otherPath, inside⟩
    · have free := leaves.above entry mem kind outer outerNamed real isAbove
      cases (PathBuf.startsWith_trans inside within).symm.trans free
    · rcases mem_refused_iff.mp otherMem with ⟨skipped, isUnsafe⟩
      have free := leaves.skipped entry mem kind outer outerNamed other skipped (Or.inr isUnsafe)
        path otherPath
      cases (PathBuf.isStrictDescendant_of_startsWith inside within).symm.trans free
  · intro seen
    constructor
    · intro entry mem kind dir named real isAbove
      rcases exists_dir_of_mem_entries mem kind named with ⟨raw, isDir, same⟩
      rcases mem_dirsOf_inTier_iff.mp isDir with ⟨rawNamed, unseen⟩
      rw [Bool.eq_false_iff, PathBuf.startsWith_congr rfl same]
      intro inside
      exact unseen (seen raw rawNamed (Or.inl ⟨real, isAbove, inside⟩))
    · intro entry mem kind dir named other skipped reason path otherPath
      rcases exists_dir_of_mem_entries mem kind named with ⟨raw, isDir, same⟩
      rcases mem_dirsOf_inTier_iff.mp isDir with ⟨rawNamed, unseen⟩
      rw [PathBuf.isStrictDescendant_congr rfl same]
      rcases reason with isAboveTier | isUnsafe
      · rcases mem_skipped_iff.mp skipped with
          early | probed | ⟨left, leftMem, above, rfl⟩ | covered
        · cases (reason_of_collect early).symm.trans isAboveTier
        · rcases reason_of_probe probed with isUnsafe | isAbsent
          · cases isUnsafe.symm.trans isAboveTier
          · cases isAbsent.symm.trans isAboveTier
        · rcases Option.map_eq_some_iff.mp otherPath with ⟨own, ownNamed, rfl⟩
          rcases List.mem_map.mp leftMem with ⟨survivor, survivorMem, rfl⟩
          have survivorNamed := ownNamed
          rw [path_promoteEntry] at survivorNamed
          rw [PathBuf.isStrictDescendant_congr
            (components_display_of_mem_dedupe worded survivorMem survivorNamed) rfl]
          exact not_inside_of_above isDir leftMem above ownNamed
        · cases (reason_of_collapse covered).symm.trans isAboveTier
      · rw [Bool.eq_false_iff]
        intro inside
        exact unseen (seen raw rawNamed
          (Or.inr ⟨other, mem_refused_iff.mpr ⟨skipped, isUnsafe⟩, path, otherPath, inside⟩))

/-- A machine on which every path is there. -/
def fullHost : Host where
  os := .linux
  currentDir := none
  stat := fun _ => .present
  pathExists := fun _ => true
  isFile := fun _ => true
  readDir := fun _ => none
  sameFile := fun _ _ => false
  toLowercase := id

/-- An uninstall of the application only, without a prefix or probed directories. -/
def applicationOnly : PlanRequest where
  dataDir := absolute ["home", "u", ".local", "share", "cloto-system"]
  tier := .application
  installPrefix := none
  roots := ⟨none, none, none, none, none, none, none, none, none, none⟩
  databasePath := none

/-- A receipt of a prefix install whose database lies in the prefix. -/
def prefixReceipt (database : PathBuf) : Receipt where
  receiptVersion := receiptVersion
  appVersion := "0.6.8"
  installedAt := "2026-07-27T00:00:00Z"
  updatedAt := "2026-07-27T00:00:00Z"
  entries := [.dir "install_prefix" (absolute ["opt", "cloto"]), .file "db" database]

/-- The prefix is not removed where its database is seen. -/
theorem leavesAlone_prefix_database :
    LeavesAlone fullHost applicationOnly
      (some (prefixReceipt (absolute ["opt", "cloto", "data", "cloto_memories.db"]))) []
      (planOf fullHost applicationOnly
        (some (prefixReceipt (absolute ["opt", "cloto", "data", "cloto_memories.db"]))) []) := by
  have worded : Worded (collectCandidates fullHost applicationOnly
      (some (prefixReceipt (absolute ["opt", "cloto", "data", "cloto_memories.db"]))) []).1 := by
    unfold Worded
    decide +kernel
  rw [leavesAlone_iff worded]
  rintro dir ⟨key, first, rest, ofKey, kind, named⟩ -
  have only : ∀ entry ∈ presentOf fullHost applicationOnly
      (some (prefixReceipt (absolute ["opt", "cloto", "data", "cloto_memories.db"]))) [],
      entry.kind = .dir → entry.path = some (absolute ["opt", "cloto"]) := by
    decide +kernel
  have mem := List.mem_of_mem_filter (ofKey ▸ List.mem_cons_self : first ∈ sameKey ..)
  cases named.symm.trans (only first mem kind)
  let database : Present :=
    ⟨"db", .file, some (absolute ["opt", "cloto", "data", "cloto_memories.db"]), none, none,
      .userData, .receipt, false, false, false⟩
  refine ⟨database, absolute ["opt", "cloto", "data", "cloto_memories.db"], ?_, ?_, ?_⟩
  · refine ⟨absolute ["opt", "cloto", "data", "cloto_memories.db"], database, [], ?_, ?_, rfl⟩
    · decide +kernel
    · exact List.mem_cons_self
  · decide +kernel
  · decide +kernel

/-- A database whose name is not text lies in the prefix that is removed. -/
theorem prefix_removed_around_refused_database :
    ¬ ∀ host request receipt found,
      LeavesAlone host request receipt found (planOf host request receipt found) := by
  intro always
  let database : PathBuf := (absolute ["opt", "cloto"]).push (.normal [0xFF])
  let receipt := some (prefixReceipt database)
  have listed : absolute ["opt", "cloto"] ∈ dirsOf (inTier fullHost applicationOnly.tier
      (collectCandidates fullHost applicationOnly receipt []).1) := by
    decide +kernel
  rcases exists_entry_of_mem_dirsOf listed with ⟨entry, mem, kind, outer, named, within⟩
  have isAbove : IsAbove fullHost applicationOnly receipt [] database := by
    refine ⟨classify "db", ?_, by decide, by decide +kernel⟩
    apply @Names.unexpressed _ _ _ _ (.file "db" database) database
    · decide +kernel
    · rfl
    · rfl
    · decide +kernel
    · decide +kernel
  have inside : database.startsWith (absolute ["opt", "cloto"]) = true := by
    decide +kernel
  have free := (always fullHost applicationOnly receipt []).above entry mem kind outer named
    database isAbove
  cases (PathBuf.startsWith_trans inside within).symm.trans free

end ClotoCore.Defender
