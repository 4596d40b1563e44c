import ClotoCore.Defender.Containment

/-!
# What a plan covers

A plan covers what lies at or under the files and directories that it lists.  A plan of a
higher tier covers at least as much.  No directory that it lists has another entry in it;
a file has none in it exactly if what is named in a file goes with a directory.
-/

namespace ClotoCore.Defender

/-- A path lies at or under a file or directory that a plan lists. -/
def Covers (plan : PurgePlan) (path : PathBuf) : Prop :=
  ∃ entry ∈ plan.entries, entry.kind.onDisk = true ∧ ∃ top ∈ entry.path, path.startsWith top = true

/-- The plan of a higher tier covers what that of a lower one does. -/
def Grows (host : Host) (request : PlanRequest) (receipt : Option Receipt)
    (found : List Candidate) : Prop :=
  ∀ lower higher : PurgeTier, lower ≤ higher → ∀ path,
    Covers (planOf host { request with tier := lower } receipt found) path →
      Covers (planOf host { request with tier := higher } receipt found) path

/-- No file or directory that a plan lists lies in another one. -/
def Flat (plan : PurgePlan) : Prop :=
  ∀ inner ∈ plan.entries, ∀ outer ∈ plan.entries,
    inner.kind.onDisk = true → outer.kind.onDisk = true →
      ∀ path ∈ inner.path, ∀ top ∈ outer.path, path.isStrictDescendant top = false

/-- Where a path is named in what is named as a file, the file goes with a directory. -/
def Encased (entries : List Present) : Prop :=
  ∀ file ∈ entries, file.kind = .file → ∀ inner ∈ entries, inner.kind.onDisk = true →
    ∀ top ∈ file.path, ∀ path ∈ inner.path, path.isStrictDescendant top = true →
      ∃ dir ∈ dirsOf entries, top.startsWith dir = true

variable {host : Host} {request : PlanRequest} {receipt : Option Receipt} {found : List Candidate}
  {tier lower higher : PurgeTier} {candidates : List Candidate} {entry : PurgeEntry}
  {left : Present} {entries : List Present} {path dir : PathBuf}

theorem components_display_of_mem_inTier (mem : left ∈ inTier host tier candidates)
    (onDisk : left.kind.onDisk = true) (named : left.path = some path) :
    path.display.components = path.components := by
  rcases mem_inTier_iff.mp mem with ⟨survivor, survivorMem, rfl, -⟩
  rcases exists_mem_of_mem_dedupe survivorMem with ⟨first, firstMem, kind, samePath⟩
  rw [kind_promoteEntry] at onDisk
  rw [path_promoteEntry] at named
  apply PathBuf.components_display
  apply representable_of_mem_probe firstMem
  · rw [kind]
    exact onDisk
  · rw [samePath]
    exact named

/-- The files and directories of a plan are those in the tier that stand alone, with their
components. -/
theorem exists_standsAlone_of_mem_entries
    (mem : entry ∈ (planOf host request receipt found).entries)
    (onDisk : entry.kind.onDisk = true) (named : entry.path = some path) :
    ∃ left ∈ inTier host request.tier (collectCandidates host request receipt found).1,
      left.kind = entry.kind ∧
        standsAlone (dirsOf (inTier host request.tier
          (collectCandidates host request receipt found).1)) left = true ∧
        ∃ raw, left.path = some raw ∧ path.components = raw.components := by
  rcases mem_entries_iff.mp mem with ⟨kept, keptMem, rfl⟩
  rcases mem_collapseNested_iff.mp keptMem with ⟨left, leftMem, alone, rfl⟩
  rcases Option.map_eq_some_iff.mp named with ⟨raw, rawNamed, rfl⟩
  exact ⟨left, leftMem, rfl, alone, raw, rawNamed,
    components_display_of_mem_inTier leftMem onDisk rawNamed⟩

theorem exists_entry_of_standsAlone
    (mem : left ∈ inTier host request.tier (collectCandidates host request receipt found).1)
    (onDisk : left.kind.onDisk = true)
    (alone : standsAlone (dirsOf (inTier host request.tier
      (collectCandidates host request receipt found).1)) left = true)
    (named : left.path = some path) :
    ∃ entry ∈ (planOf host request receipt found).entries, entry.kind = left.kind ∧
      ∃ top ∈ entry.path, top.components = path.components := by
  refine ⟨_, mem_entries_iff.mpr ⟨_, mem_collapseNested_iff.mpr ⟨left, mem, alone, rfl⟩, rfl⟩,
    rfl, path.display, ?_, components_display_of_mem_inTier mem onDisk named⟩
  exact Option.map_eq_some_iff.mpr ⟨path, named, rfl⟩

/-! ## Tiers -/

theorem mem_inTier_of_le (le : lower ≤ higher) (mem : left ∈ inTier host lower candidates) :
    left ∈ inTier host higher candidates := by
  rcases mem_inTier_iff.mp mem with ⟨survivor, survivorMem, rfl, within⟩
  exact mem_inTier_iff.mpr ⟨survivor, survivorMem, rfl, within.trans le⟩

/-- What is in the tier is covered by the plan. -/
theorem covers_of_mem_inTier
    (mem : left ∈ inTier host request.tier (collectCandidates host request receipt found).1)
    (onDisk : left.kind.onDisk = true) (named : left.path = some dir)
    (within : path.startsWith dir = true) : Covers (planOf host request receipt found) path := by
  rcases exists_standsAlone mem named with
    ⟨outer, outerMem, alone, outerKind, raw, outerNamed, around⟩
  have outerDisk : outer.kind.onDisk = true := by
    rcases outerKind with rfl | isDir
    · exact onDisk
    · rw [isDir]
      rfl
  rcases exists_entry_of_standsAlone outerMem outerDisk alone outerNamed with
    ⟨entry, entryMem, kind, top, topNamed, same⟩
  refine ⟨entry, entryMem, ?_, top, topNamed, ?_⟩
  · rw [kind]
    exact outerDisk
  · rw [PathBuf.startsWith_congr rfl same]
    exact PathBuf.startsWith_trans within around

/-- A plan of a higher tier covers at least as much. -/
theorem grows (host : Host) (request : PlanRequest) (receipt : Option Receipt)
    (found : List Candidate) : Grows host request receipt found := by
  rintro lower higher le path ⟨entry, mem, onDisk, top, named, within⟩
  rcases exists_standsAlone_of_mem_entries mem onDisk named with
    ⟨left, leftMem, kind, -, raw, rawNamed, same⟩
  have higherMem : left ∈ inTier host higher (collectCandidates host request receipt found).1 :=
    mem_inTier_of_le le leftMem
  have leftDisk : left.kind.onDisk = true := by
    rw [kind]
    exact onDisk
  have inRaw : path.startsWith raw = true := by
    rw [← PathBuf.startsWith_congr rfl same]
    exact within
  exact @covers_of_mem_inTier host { request with tier := higher } receipt found left path raw
    higherMem leftDisk rawNamed inRaw

/-! ## Nesting -/

theorem not_isStrictDescendant_of_standsAlone {dirs : List PathBuf}
    (alone : standsAlone dirs left = true) (named : left.path = some path) (mem : dir ∈ dirs) :
    path.isStrictDescendant dir = false := by
  rw [Bool.eq_false_iff]
  intro strict
  rw [standsAlone_eq_false_iff.mpr ⟨path, named, dir, mem, strict⟩] at alone
  cases alone

theorem standsAlone_of_forall {dirs : List PathBuf} (named : left.path = some path)
    (apart : ∀ dir ∈ dirs, path.startsWith dir = false) : standsAlone dirs left = true := by
  by_contra nested
  rw [Bool.not_eq_true] at nested
  rcases standsAlone_eq_false_iff.mp nested with ⟨other, otherNamed, dir, mem, strict⟩
  cases named.symm.trans otherNamed
  have within := (PathBuf.isStrictDescendant_iff.mp strict).2
  rw [apart dir mem] at within
  cases within

/-- What is around a path that lies in another one lies in it, or is around it. -/
theorem isStrictDescendant_of_around {top raw : PathBuf} (around : path.startsWith raw = true)
    (strict : path.isStrictDescendant top = true) (apart : top.startsWith raw = false) :
    raw.isStrictDescendant top = true := by
  have within := (PathBuf.isStrictDescendant_iff.mp strict).2
  rcases List.prefix_or_prefix_of_prefix (PathBuf.startsWith_iff.mp around)
      (PathBuf.startsWith_iff.mp within) with rawFirst | topFirst
  · rw [PathBuf.startsWith_iff.mpr rawFirst] at apart
    cases apart
  · apply PathBuf.isStrictDescendant_iff.mpr
    refine ⟨?_, PathBuf.startsWith_iff.mpr topFirst⟩
    intro same
    rw [PathBuf.startsWith_congr rfl same, PathBuf.startsWith_refl] at apart
    cases apart

/-- No entry of a plan lies in another exactly if what is named in a file of the tier goes
with a directory. -/
theorem flat_iff :
    Flat (planOf host request receipt found) ↔
      Encased (inTier host request.tier (collectCandidates host request receipt found).1) := by
  constructor
  · intro flat file fileMem isFile inner innerMem innerDisk top topNamed path pathNamed strict
    by_contra bare
    have apart : ∀ dir ∈ dirsOf (inTier host request.tier
        (collectCandidates host request receipt found).1), top.startsWith dir = false := by
      intro dir mem
      rw [Bool.eq_false_iff]
      intro within
      exact bare ⟨dir, mem, within⟩
    have fileDisk : file.kind.onDisk = true := by
      rw [isFile]
      rfl
    rcases exists_entry_of_standsAlone fileMem fileDisk (standsAlone_of_forall topNamed apart)
        topNamed with ⟨fileEntry, fileEntryMem, fileKind, fileTop, fileNamed, fileSame⟩
    rcases exists_standsAlone innerMem pathNamed with
      ⟨outer, outerMem, alone, outerKind, raw, outerNamed, around⟩
    have outerDisk : outer.kind.onDisk = true := by
      rcases outerKind with rfl | isDir
      · exact innerDisk
      · rw [isDir]
        rfl
    rcases exists_entry_of_standsAlone outerMem outerDisk alone outerNamed with
      ⟨outerEntry, outerEntryMem, entryKind, outerTop, outerTopNamed, outerSame⟩
    -- The entry that covers the inner path lies in the file, or it would be around it.
    have nested : raw.isStrictDescendant top = true := by
      rcases outerKind with rfl | isDir
      · cases pathNamed.symm.trans outerNamed
        exact strict
      · apply isStrictDescendant_of_around around strict
        exact apart raw (mem_dirsOf_iff.mpr ⟨outer, outerMem, isDir, outerNamed⟩)
    have apartInPlan := flat outerEntry outerEntryMem fileEntry fileEntryMem
      (by rw [entryKind]; exact outerDisk) (by rw [fileKind]; exact fileDisk)
      outerTop outerTopNamed fileTop fileNamed
    rw [PathBuf.isStrictDescendant_congr outerSame fileSame, nested] at apartInPlan
    cases apartInPlan
  · intro encased inner innerMem outer outerMem innerDisk outerDisk path pathNamed top topNamed
    rw [Bool.eq_false_iff]
    intro strict
    rcases exists_standsAlone_of_mem_entries innerMem innerDisk pathNamed with
      ⟨innerLeft, innerLeftMem, innerKind, innerAlone, innerRaw, innerNamed, innerSame⟩
    rcases exists_standsAlone_of_mem_entries outerMem outerDisk topNamed with
      ⟨outerLeft, outerLeftMem, outerKind, -, outerRaw, outerNamed, outerSame⟩
    rw [PathBuf.isStrictDescendant_congr innerSame outerSame] at strict
    have inDir : ∃ dir ∈ dirsOf (inTier host request.tier
        (collectCandidates host request receipt found).1), outerRaw.startsWith dir = true := by
      cases kind : outer.kind with
      | dir =>
          rw [kind] at outerKind
          exact ⟨outerRaw, mem_dirsOf_iff.mpr ⟨outerLeft, outerLeftMem, outerKind, outerNamed⟩,
            PathBuf.startsWith_refl outerRaw⟩
      | file =>
          rw [kind] at outerKind
          exact encased outerLeft outerLeftMem outerKind innerLeft innerLeftMem
            (by rw [innerKind]; exact innerDisk) outerRaw outerNamed innerRaw innerNamed strict
      | service | registry =>
          rw [kind] at outerDisk
          cases outerDisk
    rcases inDir with ⟨dir, mem, within⟩
    have deeper := PathBuf.isStrictDescendant_of_startsWith strict within
    rw [not_isStrictDescendant_of_standsAlone innerAlone innerNamed mem] at deeper
    cases deeper

end ClotoCore.Defender
