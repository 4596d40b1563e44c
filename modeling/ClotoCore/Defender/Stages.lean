import ClotoCore.Defender.Plan
import Mathlib.Order.MinMax

/-!
# The stages of the planner

Each stage is described by what it leaves.  Together they say which directories a plan
removes: those that are named as directories first and in which no candidate is seen
that is above the tier.
-/

namespace ClotoCore.Defender

open ClotoCore.Lookup

variable {host : Host} {tier : PurgeTier} {candidates : List Candidate} {entries : List Present}
  {entry : Present} {path dir : PathBuf}

/-! ## Probing -/

theorem mem_probeExistence_iff :
    entry ∈ (probeExistence host candidates).1 ↔
      ∃ candidate ∈ candidates, probeCandidate host candidate = .inl entry := by
  simp only [probeExistence, List.mem_filterMap, Sum.getLeft?_eq_some_iff]

/-- What is probed is absolute, clean and can be carried, and keeps the rest. -/
theorem probeCandidate_onDisk {candidate : Candidate}
    (probed : probeCandidate host candidate = .inl entry) (onDisk : candidate.kind.onDisk = true)
    (named : candidate.path = some path) :
    ∃ abs unreadable, path.absolutize host.os host.currentDir = some abs ∧
      abs.isFilesystemRoot = false ∧ abs.representable ≠ none ∧ host.stat abs ≠ .missing ∧
      entry = candidate.present (some abs) unreadable := by
  simp only [probeCandidate, onDisk, named] at probed
  split at probed
  · cases probed
  · next abs made =>
    split at probed
    · cases probed
    · next inner =>
      split at probed
      · cases probed
      · next carried =>
        split at probed
        · next there =>
          cases probed
          exact ⟨abs, false, made, by simpa using inner, carried, by simp [there], rfl⟩
        · next there =>
          cases probed
          exact ⟨abs, true, made, by simpa using inner, carried, by simp [there], rfl⟩
        · cases probed

/-- What is not on disk is left as it is, and so is what has no path. -/
theorem probeCandidate_unprobed {candidate : Candidate}
    (unprobed : candidate.kind.onDisk = false ∨ candidate.path = none) :
    probeCandidate host candidate = .inl (candidate.present candidate.path false) := by
  unfold probeCandidate
  split
  · next onDisk named =>
    rcases unprobed with off | unnamed
    · cases onDisk.symm.trans off
    · cases named.symm.trans unnamed
  · rfl

theorem kind_of_probeCandidate {candidate : Candidate}
    (probed : probeCandidate host candidate = .inl entry) : entry.kind = candidate.kind := by
  by_cases unprobed : candidate.kind.onDisk = false ∨ candidate.path = none
  · rw [probeCandidate_unprobed unprobed] at probed
    cases probed
    rfl
  · rw [not_or, Bool.not_eq_false] at unprobed
    rcases Option.ne_none_iff_exists'.mp unprobed.2 with ⟨path, named⟩
    rcases probeCandidate_onDisk probed unprobed.1 named with ⟨abs, unreadable, -, -, -, -, rfl⟩
    rfl

/-- The path of what is on disk can be carried. -/
theorem representable_of_mem_probe (mem : entry ∈ (probeExistence host candidates).1)
    (onDisk : entry.kind.onDisk = true) (named : entry.path = some path) :
    path.representable ≠ none := by
  rcases mem_probeExistence_iff.mp mem with ⟨candidate, -, probed⟩
  rw [kind_of_probeCandidate probed] at onDisk
  cases candidatePath : candidate.path with
  | none =>
      rw [probeCandidate_unprobed (Or.inr candidatePath)] at probed
      cases probed
      cases candidatePath.symm.trans named
  | some raw =>
      rcases probeCandidate_onDisk probed onDisk candidatePath with
        ⟨abs, unreadable, -, -, carried, -, rfl⟩
      cases named
      exact carried

/-! ## Merging -/

/-- The candidates of one key, in their order. -/
abbrev sameKey (host : Host) (key : PathBuf) (entries : List Present) : List Present :=
  itemsOf (Present.dedupeKey? host) key entries

theorem dedupeKey?_merge (winner entry : Present) :
    (winner.merge entry).dedupeKey? host = winner.dedupeKey? host :=
  rfl

theorem foldl_merge_kind_path (first : Present) (rest : List Present) :
    (rest.foldl Present.merge first).kind = first.kind ∧
      (rest.foldl Present.merge first).path = first.path := by
  induction rest generalizing first with
  | nil => exact ⟨rfl, rfl⟩
  | cons entry rest ih => exact ih (first.merge entry)

/-- The tier of what is merged is the widest one. -/
theorem foldl_merge_tier_le_iff {first : Present} {rest : List Present} :
    (rest.foldl Present.merge first).tier ≤ tier ↔ ∀ entry ∈ first :: rest, entry.tier ≤ tier := by
  induction rest generalizing first with
  | nil => simp
  | cons entry rest ih =>
      rw [List.foldl_cons, ih]
      simp only [List.forall_mem_cons, Present.merge, max_le_iff, and_assoc]

/-- An entry goes under a path: the one that the first candidate of its key has. -/
def GoesUnder (host : Host) (entries : List Present) (entry : Present) (path : PathBuf) : Prop :=
  ∃ key first rest, sameKey host key entries = first :: rest ∧ entry ∈ first :: rest ∧
    first.path = some path

/-- A path is that of a directory: the first candidate of its key names one. -/
def NamedDir (host : Host) (entries : List Present) (dir : PathBuf) : Prop :=
  ∃ key first rest, sameKey host key entries = first :: rest ∧ first.kind = .dir ∧
    first.path = some dir

/-- An entry above a tier is seen in a directory, or goes under its path. -/
def SeesAbove (host : Host) (tier : PurgeTier) (entries : List Present) (dir : PathBuf) : Prop :=
  ∃ entry path, GoesUnder host entries entry path ∧
    (path = dir ∨ path.isStrictDescendant dir = true) ∧ tier < entry.tier

theorem mem_dedupeByPath_iff :
    entry ∈ dedupeByPath host entries ↔
      (entry.path = none ∧ entry ∈ entries) ∨
        ∃ key first rest, sameKey host key entries = first :: rest ∧
          entry = rest.foldl Present.merge first := by
  rw [dedupeByPath, mem_mergeAll_iff dedupeKey?_merge]
  simp only [Present.dedupeKey?, Option.map_eq_none_iff]
  rfl

/-- What is left under a path is at most at a tier exactly if all that goes under it is. -/
theorem dedupe_tier_le_iff (mem : entry ∈ dedupeByPath host entries)
    (named : entry.path = some path) :
    entry.tier ≤ tier ↔ ∀ other, GoesUnder host entries other path → other.tier ≤ tier := by
  rcases mem_dedupeByPath_iff.mp mem with ⟨unnamed, -⟩ | ⟨key, first, rest, ofKey, rfl⟩
  · cases unnamed.symm.trans named
  · rw [(foldl_merge_kind_path first rest).2] at named
    rw [foldl_merge_tier_le_iff]
    constructor
    · rintro all other ⟨otherKey, otherFirst, otherRest, otherOf, otherMem, otherNamed⟩
      have keys : some key = some otherKey := by
        rw [← key_of_itemsOf ofKey, ← key_of_itemsOf otherOf,
          Present.dedupeKey?, Present.dedupeKey?,
          named, otherNamed]
      cases keys
      cases ofKey.symm.trans otherOf
      exact all other otherMem
    · intro all other otherMem
      exact all other ⟨key, first, rest, ofKey, otherMem, named⟩

/-- Something is left under the path that an entry goes under. -/
theorem exists_dedupe_of_goesUnder (goes : GoesUnder host entries entry path) :
    ∃ left ∈ dedupeByPath host entries, left.path = some path ∧ entry.tier ≤ left.tier := by
  rcases goes with ⟨key, first, rest, ofKey, mem, named⟩
  refine ⟨rest.foldl Present.merge first, ?_, ?_, ?_⟩
  · exact mem_dedupeByPath_iff.mpr (Or.inr ⟨key, first, rest, ofKey, rfl⟩)
  · rw [(foldl_merge_kind_path first rest).2]
    exact named
  · exact foldl_merge_tier_le_iff.mp le_rfl entry mem

/-- What is left was probed, with its kind and its path. -/
theorem exists_mem_of_mem_dedupe (mem : entry ∈ dedupeByPath host entries) :
    ∃ first ∈ entries, first.kind = entry.kind ∧ first.path = entry.path := by
  rcases mem_dedupeByPath_iff.mp mem with ⟨-, here⟩ | ⟨key, first, rest, ofKey, rfl⟩
  · exact ⟨entry, here, rfl, rfl⟩
  · refine ⟨first, ?_, (foldl_merge_kind_path first rest).1.symm,
      (foldl_merge_kind_path first rest).2.symm⟩
    have mem : first ∈ sameKey host key entries := by
      rw [ofKey]
      exact List.mem_cons_self
    exact (List.mem_filter.mp mem).1

theorem namedDir_iff :
    NamedDir host entries dir ↔
      ∃ left ∈ dedupeByPath host entries, left.kind = .dir ∧ left.path = some dir := by
  constructor
  · rintro ⟨key, first, rest, ofKey, kind, named⟩
    refine ⟨rest.foldl Present.merge first,
      mem_dedupeByPath_iff.mpr (Or.inr ⟨key, first, rest, ofKey, rfl⟩), ?_, ?_⟩
    · rw [(foldl_merge_kind_path first rest).1]
      exact kind
    · rw [(foldl_merge_kind_path first rest).2]
      exact named
  · rintro ⟨left, mem, kind, named⟩
    rcases mem_dedupeByPath_iff.mp mem with ⟨unnamed, -⟩ | ⟨key, first, rest, ofKey, rfl⟩
    · cases unnamed.symm.trans named
    · rw [(foldl_merge_kind_path first rest).1] at kind
      rw [(foldl_merge_kind_path first rest).2] at named
      exact ⟨key, first, rest, ofKey, kind, named⟩

/-! ## Raising -/

theorem mem_innerPaths_iff {inner : PathBuf × PurgeTier} :
    inner ∈ innerPaths entries ↔
      ∃ entry ∈ entries, entry.path = some inner.1 ∧ entry.tier = inner.2 := by
  simp only [innerPaths, List.mem_filterMap, Option.map_eq_some_iff, Prod.ext_iff]
  constructor
  · rintro ⟨entry, mem, path, named, rfl, tiers⟩
    exact ⟨entry, mem, named, tiers⟩
  · rintro ⟨entry, mem, named, tiers⟩
    exact ⟨entry, mem, inner.1, named, rfl, tiers⟩

theorem raise_le_iff {inner : List (PathBuf × PurgeTier)} {base : PurgeTier} :
    raise dir inner base ≤ tier ↔
      base ≤ tier ∧ ∀ path ∈ inner, path.1.isStrictDescendant dir = true → path.2 ≤ tier := by
  induction inner generalizing base with
  | nil => simp [raise]
  | cons path rest ih =>
      have folded : raise dir (path :: rest) base
          = raise dir rest (if path.1.isStrictDescendant dir then max base path.2 else base) := rfl
      rw [folded, ih, List.forall_mem_cons]
      by_cases strict : path.1.isStrictDescendant dir = true
      · simp only [strict, if_true, max_le_iff, forall_const, and_assoc]
      · simp [strict]

/-- Raising changes nothing but the tier of a directory. -/
theorem promoteEntry_eq {inner : List (PathBuf × PurgeTier)} :
    ∃ raised, promoteEntry inner entry = { entry with tier := raised } := by
  unfold promoteEntry
  split
  · exact ⟨_, rfl⟩
  · exact ⟨entry.tier, rfl⟩

theorem kind_promoteEntry {inner : List (PathBuf × PurgeTier)} :
    (promoteEntry inner entry).kind = entry.kind := by
  rcases @promoteEntry_eq entry inner with ⟨raised, eq⟩
  rw [eq]

theorem path_promoteEntry {inner : List (PathBuf × PurgeTier)} :
    (promoteEntry inner entry).path = entry.path := by
  rcases @promoteEntry_eq entry inner with ⟨raised, eq⟩
  rw [eq]

theorem promoteEntry_dir_le_iff {inner : List (PathBuf × PurgeTier)} (kind : entry.kind = .dir)
    (named : entry.path = some dir) :
    (promoteEntry inner entry).tier ≤ tier ↔
      entry.tier ≤ tier ∧ ∀ path ∈ inner, path.1.isStrictDescendant dir = true → path.2 ≤ tier := by
  simp only [promoteEntry, kind, named]
  exact raise_le_iff

/-! ## What is in the tier -/

theorem mem_inTier_iff :
    entry ∈ inTier host tier candidates ↔
      ∃ left ∈ dedupeByPath host (probeExistence host candidates).1,
        entry = promoteEntry
            (innerPaths (dedupeByPath host (probeExistence host candidates).1)) left ∧
          entry.tier ≤ tier := by
  simp only [inTier, filterByTier, promoteContainers, List.mem_filter, List.mem_map,
    PurgeTier.includes_iff]
  constructor
  · rintro ⟨⟨left, mem, rfl⟩, within⟩
    exact ⟨left, mem, rfl, within⟩
  · rintro ⟨left, mem, rfl, within⟩
    exact ⟨⟨left, mem, rfl⟩, within⟩

theorem mem_dirsOf_iff :
    dir ∈ dirsOf entries ↔ ∃ entry ∈ entries, entry.kind = .dir ∧ entry.path = some dir := by
  simp only [dirsOf, List.mem_filterMap, List.mem_filter, decide_eq_true_eq, and_assoc]

/-- Nothing above the tier is seen in a directory exactly if no entry that is left in it
is above the tier. -/
theorem not_seesAbove_iff :
    ¬ SeesAbove host tier entries dir ↔
      ∀ left ∈ dedupeByPath host entries, ∀ path, left.path = some path →
        (path = dir ∨ path.isStrictDescendant dir = true) → left.tier ≤ tier := by
  constructor
  · intro unseen left mem path named inside
    rw [dedupe_tier_le_iff mem named]
    intro other goes
    by_contra above
    exact unseen ⟨other, path, goes, inside, not_le.mp above⟩
  · rintro all ⟨entry, path, goes, inside, above⟩
    rcases exists_dedupe_of_goesUnder goes with ⟨left, mem, named, le⟩
    exact absurd (lt_of_lt_of_le above (le.trans (all left mem path named inside))) (lt_irrefl _)

/-- The directories in the tier are those that are named as such and in which nothing
above the tier is seen. -/
theorem mem_dirsOf_inTier_iff :
    dir ∈ dirsOf (inTier host tier candidates) ↔
      NamedDir host (probeExistence host candidates).1 dir ∧
        ¬ SeesAbove host tier (probeExistence host candidates).1 dir := by
  rw [mem_dirsOf_iff, namedDir_iff, not_seesAbove_iff]
  constructor
  · rintro ⟨entry, mem, kind, named⟩
    rcases mem_inTier_iff.mp mem with ⟨left, leftMem, rfl, within⟩
    rw [kind_promoteEntry] at kind
    rw [path_promoteEntry] at named
    refine ⟨⟨left, leftMem, kind, named⟩, ?_⟩
    rcases (promoteEntry_dir_le_iff kind named).mp within with ⟨own, inner⟩
    rintro other otherMem path otherNamed (rfl | strict)
    · rw [dedupe_tier_le_iff otherMem otherNamed]
      exact (dedupe_tier_le_iff leftMem named).mp own
    · exact inner (path, other.tier) (mem_innerPaths_iff.mpr ⟨other, otherMem, otherNamed, rfl⟩)
        strict
  · rintro ⟨⟨left, leftMem, kind, named⟩, all⟩
    refine ⟨_, mem_inTier_iff.mpr ⟨left, leftMem, rfl, ?_⟩, ?_, ?_⟩
    · rw [promoteEntry_dir_le_iff kind named]
      refine ⟨all left leftMem dir named (Or.inl rfl), ?_⟩
      intro inner innerMem strict
      rcases mem_innerPaths_iff.mp innerMem with ⟨other, otherMem, otherNamed, tiers⟩
      rw [← tiers]
      exact all other otherMem inner.1 otherNamed (Or.inr strict)
    · rw [kind_promoteEntry]
      exact kind
    · rw [path_promoteEntry]
      exact named

/-! ## Collapsing -/

theorem standsAlone_eq_false_iff {dirs : List PathBuf} :
    standsAlone dirs entry = false ↔
      ∃ path ∈ entry.path, ∃ dir ∈ dirs, path.isStrictDescendant dir = true := by
  cases named : entry.path with
  | none => simp [standsAlone, parentIn, named]
  | some path => simp [standsAlone, parentIn, named, List.find?_isSome]

/-- Each entry stands alone or lies in a directory that does. -/
theorem exists_standsAlone (mem : entry ∈ entries) (named : entry.path = some path) :
    ∃ outer ∈ entries, standsAlone (dirsOf entries) outer = true ∧
      (outer = entry ∨ outer.kind = .dir) ∧
      ∃ outerPath, outer.path = some outerPath ∧ path.startsWith outerPath = true := by
  induction length : path.components.length using Nat.strongRecOn generalizing entry path with
  | ind count ih =>
      by_cases alone : standsAlone (dirsOf entries) entry = true
      · exact ⟨entry, mem, alone, Or.inl rfl, path, named, PathBuf.startsWith_refl path⟩
      · rw [Bool.not_eq_true, standsAlone_eq_false_iff] at alone
        rcases alone with ⟨own, ownNamed, dir, dirMem, strict⟩
        cases named.symm.trans ownNamed
        rcases mem_dirsOf_iff.mp dirMem with ⟨parent, parentMem, kind, parentNamed⟩
        have shorter := PathBuf.length_lt_of_isStrictDescendant strict
        rw [length] at shorter
        rcases ih _ shorter parentMem parentNamed rfl with
          ⟨outer, outerMem, outerAlone, outerKind, outerPath, outerNamed, within⟩
        refine ⟨outer, outerMem, outerAlone, Or.inr ?_, outerPath, outerNamed, ?_⟩
        · rcases outerKind with rfl | isDir
          · exact kind
          · exact isDir
        · exact PathBuf.startsWith_trans (PathBuf.isStrictDescendant_iff.mp strict).2 within

/-- The entries that stand alone are kept, with their kind, path and tier. -/
theorem mem_collapseNested_iff {kept : Present} :
    kept ∈ (collapseNested entries).1 ↔
      ∃ entry ∈ entries, standsAlone (dirsOf entries) entry = true ∧
        kept = { entry with coversSecret := entry.coversSecret || entry.path.any fun path =>
          ((entries.filter fun entry => entry.secret || entry.coversSecret).filterMap
            (parentIn (dirsOf entries))).any fun parent => parent.components == path.components } := by
  simp only [collapseNested, List.mem_map, List.mem_filter, and_assoc]
  constructor
  · rintro ⟨entry, mem, alone, rfl⟩
    exact ⟨entry, mem, alone, rfl⟩
  · rintro ⟨entry, mem, alone, rfl⟩
    exact ⟨entry, mem, alone, rfl⟩

end ClotoCore.Defender
