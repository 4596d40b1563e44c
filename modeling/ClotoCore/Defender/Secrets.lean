import ClotoCore.Defender.Containment
import Mathlib.Data.List.Find

/-!
# What a plan says of credentials

A secret that lies in a directory that is removed is told by the flag of the first
directory that is found around it.  That directory may lie in a wider one and leave
the plan, and its flag goes with it: the plan is told of a secret only where no
directory between the secret and the one that stays comes before the latter.
-/

namespace ClotoCore.Defender

open ClotoCore.Lookup

/-- `PurgeEntry::destroys_secret` -/
def PurgeEntry.destroysSecret (entry : PurgeEntry) : Bool :=
  entry.secret || entry.coversSecret

/-- `PurgePlan::contains_secret` -/
def PurgePlan.containsSecret (plan : PurgePlan) : Bool :=
  plan.entries.any PurgeEntry.destroysSecret

/-- `dedupe_key` of a path that a plan shows. -/
def shownKey (host : Host) (shown : PathBuf) : PathBuf :=
  if host.os = .windows then host.toLowercase shown else shown

/-- An entry of a plan removes what is at its path and, if it is a directory, what lies
in it. -/
def PurgeEntry.Removes (host : Host) (listed : PurgeEntry) (entry : Present) : Prop :=
  ∃ shown ∈ listed.path, ∃ path ∈ entry.path,
    dedupeKey host path = shownKey host shown ∨
      listed.kind = .dir ∧ path.isStrictDescendant shown = true

/-- Whatever removes a secret says so. -/
def Warns (host : Host) (present : List Present) (plan : PurgePlan) : Prop :=
  ∀ entry ∈ present, entry.secret = true → ∀ listed ∈ plan.entries, listed.Removes host entry →
    listed.destroysSecret = true ∧ plan.containsSecret = true

/-! ## When it does -/

/-- A directory is removed at a tier, by itself or with another one around it. -/
def GoesAt (host : Host) (tier : PurgeTier) (present : List Present) (dir : PathBuf) : Prop :=
  NamedDir host present dir ∧ ¬ SeesAbove host tier present dir

/-- Of the directories around a path that are removed, one is named before all others. -/
def FirstAround (host : Host) (tier : PurgeTier) (present : List Present) (path dir : PathBuf) :
    Prop :=
  GoesAt host tier present dir ∧ path.isStrictDescendant dir = true ∧
    ∃ front first back, present = front ++ first :: back ∧
      first.dedupeKey? host = some (dedupeKey host dir) ∧
      ∀ other, GoesAt host tier present other → path.isStrictDescendant other = true →
        ∀ entry ∈ front, entry.dedupeKey? host ≠ some (dedupeKey host other)

/-- A directory is known to take a secret with it: a secret has its path, or is in it with
no removed directory around the secret named before it. -/
def ToldOf (host : Host) (tier : PurgeTier) (present : List Present) (dir : PathBuf) : Prop :=
  ∃ entry path, GoesUnder host present entry path ∧ entry.secret = true ∧
    (path = dir ∨ FirstAround host tier present path dir)

/-- Every outermost directory that is removed with a secret in it is known to take one. -/
def SecretsSurface (host : Host) (tier : PurgeTier) (present : List Present) : Prop :=
  ∀ dir, GoesAt host tier present dir →
    (∀ outer, GoesAt host tier present outer → dir.isStrictDescendant outer = false) →
    (∃ entry ∈ present, entry.secret = true ∧
      ∃ path ∈ entry.path, path.isStrictDescendant dir = true) →
    ToldOf host tier present dir

variable {host : Host} {tier : PurgeTier} {candidates : List Candidate} {entries : List Present}
  {entry left : Present} {path dir : PathBuf}

/-! ## The flags before the collapse -/

theorem foldl_merge_secret_iff {first : Present} {rest : List Present} :
    (rest.foldl Present.merge first).secret = true ↔
      ∃ entry ∈ first :: rest, entry.secret = true := by
  induction rest generalizing first with
  | nil => simp
  | cons entry rest ih =>
      rw [List.foldl_cons, ih]
      simp only [List.exists_mem_cons_iff, Present.merge, Bool.or_eq_true, or_assoc]

theorem foldl_merge_coversSecret (first : Present) (rest : List Present) :
    (rest.foldl Present.merge first).coversSecret = first.coversSecret := by
  induction rest generalizing first with
  | nil => rfl
  | cons entry rest ih => exact ih (first.merge entry)

/-- What goes under the path of a key are the candidates of the key. -/
theorem goesUnder_iff {key : PathBuf} {first : Present} {rest : List Present}
    (ofKey : sameKey host key entries = first :: rest) (named : first.path = some path) :
    GoesUnder host entries entry path ↔ entry ∈ first :: rest := by
  constructor
  · rintro ⟨otherKey, otherFirst, otherRest, otherOf, otherMem, otherNamed⟩
    have keys : some key = some otherKey := by
      rw [← key_of_itemsOf ofKey, ← key_of_itemsOf otherOf, Present.dedupeKey?, Present.dedupeKey?,
        named, otherNamed]
    cases keys
    cases ofKey.symm.trans otherOf
    exact otherMem
  · intro mem
    exact ⟨key, first, rest, ofKey, mem, named⟩

/-- What is left under a path is a secret if something that goes under it is. -/
theorem dedupe_secret_iff (mem : left ∈ dedupeByPath host entries) (named : left.path = some path) :
    left.secret = true ↔ ∃ entry, GoesUnder host entries entry path ∧ entry.secret = true := by
  rcases mem_dedupeByPath_iff.mp mem with ⟨unnamed, -⟩ | ⟨key, first, rest, ofKey, rfl⟩
  · cases unnamed.symm.trans named
  · rw [(foldl_merge_kind_path first rest).2] at named
    simp only [foldl_merge_secret_iff, goesUnder_iff ofKey named]

theorem coversSecret_of_mem_probe (mem : entry ∈ (probeExistence host candidates).1) :
    entry.coversSecret = false := by
  rcases mem_probeExistence_iff.mp mem with ⟨candidate, -, probed⟩
  unfold probeCandidate at probed
  split at probed
  · split at probed
    · cases probed
    · split at probed
      · cases probed
      · split at probed
        · cases probed
        · split at probed
          · cases probed
            rfl
          · cases probed
            rfl
          · cases probed
  · cases probed
    rfl

theorem coversSecret_of_mem_dedupe
    (mem : left ∈ dedupeByPath host (probeExistence host candidates).1) :
    left.coversSecret = false := by
  rcases mem_dedupeByPath_iff.mp mem with ⟨-, here⟩ | ⟨key, first, rest, ofKey, rfl⟩
  · exact coversSecret_of_mem_probe here
  · rw [foldl_merge_coversSecret]
    have firstMem : first ∈ sameKey host key (probeExistence host candidates).1 := by
      rw [ofKey]
      exact List.mem_cons_self
    exact coversSecret_of_mem_probe (List.mem_of_mem_filter firstMem)

theorem secret_promoteEntry {inner : List (PathBuf × PurgeTier)} :
    (promoteEntry inner entry).secret = entry.secret := by
  rcases @promoteEntry_eq entry inner with ⟨raised, eq⟩
  rw [eq]

theorem coversSecret_promoteEntry {inner : List (PathBuf × PurgeTier)} :
    (promoteEntry inner entry).coversSecret = entry.coversSecret := by
  rcases @promoteEntry_eq entry inner with ⟨raised, eq⟩
  rw [eq]

/-- What is in the tier under a path is a secret if something that goes under it is, and
nothing in it is told of others yet. -/
theorem inTier_secret_iff (mem : left ∈ inTier host tier candidates)
    (named : left.path = some path) :
    (left.secret = true ↔ ∃ entry, GoesUnder host (probeExistence host candidates).1 entry path ∧
      entry.secret = true) ∧ left.coversSecret = false := by
  rcases mem_inTier_iff.mp mem with ⟨survivor, survivorMem, rfl, -⟩
  rw [path_promoteEntry] at named
  rw [secret_promoteEntry, coversSecret_promoteEntry]
  exact ⟨dedupe_secret_iff survivorMem named, coversSecret_of_mem_dedupe survivorMem⟩

/-- What is left in a directory that is removed is in the tier. -/
theorem promoteEntry_mem_inTier
    (goes : GoesAt host tier (probeExistence host candidates).1 dir)
    (mem : left ∈ dedupeByPath host (probeExistence host candidates).1)
    (named : left.path = some path) (strict : path.isStrictDescendant dir = true) :
    promoteEntry (innerPaths (dedupeByPath host (probeExistence host candidates).1)) left ∈
      inTier host tier candidates := by
  have all := not_seesAbove_iff.mp goes.2
  have own := all left mem path named (Or.inr strict)
  apply mem_inTier_iff.mpr
  refine ⟨left, mem, rfl, ?_⟩
  by_cases kind : left.kind = .dir
  · rw [promoteEntry_dir_le_iff kind named]
    refine ⟨own, ?_⟩
    intro inner innerMem deeper
    rcases mem_innerPaths_iff.mp innerMem with ⟨other, otherMem, otherNamed, tiers⟩
    rw [← tiers]
    apply all other otherMem inner.1 otherNamed
    exact Or.inr (PathBuf.isStrictDescendant_of_startsWith deeper
      (PathBuf.isStrictDescendant_iff.mp strict).2)
  · have same : promoteEntry
      (innerPaths (dedupeByPath host (probeExistence host candidates).1)) left
        = left := by
      unfold promoteEntry
      split
      · next isDir _ => exact absurd isDir kind
      · rfl
    rw [same]
    exact own

/-! ## The first directory around a path -/

theorem goesAt_iff :
    GoesAt host tier (probeExistence host candidates).1 dir ↔
      dir ∈ dirsOf (inTier host tier candidates) :=
  mem_dirsOf_inTier_iff.symm

/-- One entry is left for each key. -/
theorem eq_of_mem_dedupe {other : Present} (mem : left ∈ dedupeByPath host entries)
    (otherMem : other ∈ dedupeByPath host entries) {key : PathBuf}
    (ofKey : left.dedupeKey? host = some key) (otherOf : other.dedupeKey? host = some key) :
    left = other := by
  have merged {item : Present} (here : item ∈ dedupeByPath host entries)
      (keyed : item.dedupeKey? host = some key) :
      Merged (Present.dedupeKey? host) Present.merge entries key item := by
    rcases (mem_mergeAll_iff dedupeKey?_merge).mp here with ⟨noKey, -⟩ | ⟨same, merged⟩
    · cases noKey.symm.trans keyed
    · cases (key_of_merged dedupeKey?_merge merged).symm.trans keyed
      exact merged
  rcases merged mem ofKey with ⟨first, rest, firstEq, rfl⟩
  rcases merged otherMem otherOf with ⟨second, more, secondEq, rfl⟩
  cases firstEq.symm.trans secondEq
  rfl

/-- An entry is a directory in the tier around a path. -/
def isAround (tier : PurgeTier) (path : PathBuf) (entry : Present) : Bool :=
  tier.includes entry.tier && decide (entry.kind = .dir) && entry.path.any path.isStrictDescendant

theorem isAround_iff :
    isAround tier path entry = true ↔
      entry.tier ≤ tier ∧ entry.kind = .dir ∧
        ∃ dir, entry.path = some dir ∧ path.isStrictDescendant dir = true := by
  simp only [isAround, Bool.and_eq_true, PurgeTier.includes_iff, decide_eq_true_eq, and_assoc,
    Option.any_eq_true]

/-- A key is that of a removed directory around a path. -/
def AroundKey (host : Host) (tier : PurgeTier) (present : List Present) (path : PathBuf)
    (key : Option PathBuf) : Prop :=
  ∃ dir, GoesAt host tier present dir ∧ path.isStrictDescendant dir = true ∧
    key = some (dedupeKey host dir)

/-- Whether an entry that is left is a directory around a path is told by its key. -/
theorem isAround_promoteEntry_iff
    (mem : left ∈ dedupeByPath host (probeExistence host candidates).1) :
    isAround tier path (promoteEntry
        (innerPaths (dedupeByPath host (probeExistence host candidates).1)) left) = true ↔
      AroundKey host tier (probeExistence host candidates).1 path (left.dedupeKey? host) := by
  rw [isAround_iff, kind_promoteEntry, path_promoteEntry]
  constructor
  · rintro ⟨within, kind, dir, named, strict⟩
    refine ⟨dir, goesAt_iff.mpr (mem_dirsOf_iff.mpr ⟨_, mem_inTier_iff.mpr ⟨left, mem, rfl, within⟩,
      ?_, ?_⟩), strict, ?_⟩
    · rw [kind_promoteEntry]
      exact kind
    · rw [path_promoteEntry]
      exact named
    · rw [Present.dedupeKey?, named, Option.map_some]
  · rintro ⟨dir, goes, strict, ofKey⟩
    rcases mem_dirsOf_iff.mp (goesAt_iff.mp goes) with ⟨entry, entryMem, kind, named⟩
    rcases mem_inTier_iff.mp entryMem with ⟨other, otherMem, rfl, within⟩
    rw [kind_promoteEntry] at kind
    rw [path_promoteEntry] at named
    have otherOf : other.dedupeKey? host = some (dedupeKey host dir) := by
      rw [Present.dedupeKey?, named, Option.map_some]
    cases eq_of_mem_dedupe mem otherMem ofKey otherOf
    exact ⟨within, kind, dir, named, strict⟩

theorem find?_dirsOf_inTier :
    (dirsOf (inTier host tier candidates)).find? (fun dir => path.isStrictDescendant dir) =
      ((dedupeByPath host (probeExistence host candidates).1).find? fun left =>
        isAround tier path (promoteEntry
          (innerPaths (dedupeByPath host (probeExistence host candidates).1)) left)).bind
        Present.path := by
  rw [dirsOf, List.find?_filterMap, List.find?_filter, inTier, filterByTier, List.find?_filter,
    promoteContainers, List.find?_map, Option.bind_map]
  congr 1
  · congr 1
    funext left
    simp [isAround, Bool.and_assoc]
  · funext left
    exact path_promoteEntry

/-- Of the directories around a path, the first one in the tier is the one that is named
before the others. -/
theorem find?_dirsOf_inTier_eq_some_iff :
    (dirsOf (inTier host tier candidates)).find?
      (fun dir => path.isStrictDescendant dir) = some dir ↔
      FirstAround host tier (probeExistence host candidates).1 path dir := by
  classical
  let present := (probeExistence host candidates).1
  let holds : Option PathBuf → Bool := fun key => decide (AroundKey host tier present path key)
  have around : ((dedupeByPath host present).find? fun left =>
      isAround tier path (promoteEntry (innerPaths (dedupeByPath host present)) left)) =
        (dedupeByPath host present).find? (holds ∘ Present.dedupeKey? host) := by
    apply List.find?_congr
    intro left mem
    rw [Bool.eq_iff_iff, isAround_promoteEntry_iff mem]
    simp [holds, present]
  have keys : ((dedupeByPath host present).find? (holds ∘ Present.dedupeKey? host)).map
      (Present.dedupeKey? host) =
        (present.find? (holds ∘ Present.dedupeKey? host)).map (Present.dedupeKey? host) := by
    rw [← List.find?_map, ← List.find?_map]
    exact find?_map_key_mergeAll dedupeKey?_merge holds
  rw [find?_dirsOf_inTier, around]
  constructor
  · intro found
    rcases Option.bind_eq_some_iff.mp found with ⟨left, leftFound, named⟩
    have leftKey : left.dedupeKey? host = some (dedupeKey host dir) := by
      rw [Present.dedupeKey?, named, Option.map_some]
    rw [leftFound, Option.map_some, leftKey] at keys
    rcases Option.map_eq_some_iff.mp keys.symm with ⟨first, firstFound, firstKey⟩
    rcases List.find?_eq_some_iff_append.mp firstFound with ⟨-, front, back, split, before⟩
    have leftMem := List.mem_of_find?_eq_some leftFound
    have aroundKey : AroundKey host tier present path (left.dedupeKey? host) := by
      simpa [holds] using List.find?_some leftFound
    rcases isAround_iff.mp ((isAround_promoteEntry_iff leftMem).mpr aroundKey) with
      ⟨within, kind, own, ownNamed, strict⟩
    have ownEq : own = dir := by
      rw [path_promoteEntry, named] at ownNamed
      exact (Option.some.inj ownNamed).symm
    subst ownEq
    refine ⟨goesAt_iff.mpr (mem_dirsOf_iff.mpr ⟨_, mem_inTier_iff.mpr ⟨left, leftMem, rfl, within⟩,
      kind, ownNamed⟩), strict, front, first, back, split, firstKey, ?_⟩
    intro other goes inside entry mem same
    have fails := before entry mem
    rw [Function.comp_apply, Bool.not_eq_true', decide_eq_false_iff_not] at fails
    exact fails ⟨other, goes, inside, same⟩
  · rintro ⟨goes, strict, front, first, back, split, firstKey, before⟩
    have firstFound : present.find? (holds ∘ Present.dedupeKey? host) = some first := by
      apply List.find?_eq_some_iff_append.mpr
      refine ⟨decide_eq_true ⟨dir, goes, strict, firstKey⟩, front, back, split, ?_⟩
      intro entry mem
      rw [Function.comp_apply, Bool.not_eq_true', decide_eq_false_iff_not]
      rintro ⟨other, otherGoes, inside, same⟩
      exact before other otherGoes inside entry mem same
    rw [firstFound, Option.map_some, firstKey] at keys
    rcases Option.map_eq_some_iff.mp keys with ⟨left, leftFound, leftKey⟩
    rcases namedDir_iff.mp goes.1 with ⟨entry, entryMem, -, named⟩
    have entryKey : entry.dedupeKey? host = some (dedupeKey host dir) := by
      rw [Present.dedupeKey?, named, Option.map_some]
    cases eq_of_mem_dedupe (List.mem_of_find?_eq_some leftFound) entryMem leftKey entryKey
    rw [leftFound, Option.bind_some, named]

/-! ## What a plan is told -/

/-- The directories in the tier are known by their components. -/
theorem eq_of_components_of_mem_dirsOf {other : PathBuf}
    (mem : dir ∈ dirsOf (inTier host tier candidates))
    (otherMem : other ∈ dirsOf (inTier host tier candidates))
    (same : other.components = dir.components) : other = dir := by
  have clean {item : PathBuf} (here : item ∈ dirsOf (inTier host tier candidates)) :
    item.Clean := by
    rcases mem_dirsOf_iff.mp here with ⟨entry, entryMem, kind, named⟩
    rcases mem_inTier_iff.mp entryMem with ⟨left, leftMem, rfl, -⟩
    rw [kind_promoteEntry] at kind
    rw [path_promoteEntry] at named
    rcases exists_mem_of_mem_dedupe leftMem with ⟨first, firstMem, firstKind, firstPath⟩
    rcases mem_probeExistence_iff.mp firstMem with ⟨candidate, -, probed⟩
    have onDisk : candidate.kind.onDisk = true := by
      rw [← kind_of_probeCandidate probed, firstKind, kind]
      rfl
    cases raw : candidate.path with
    | none =>
        rw [probeCandidate_unprobed (Or.inr raw)] at probed
        cases probed
        rw [named] at firstPath
        cases firstPath.symm.trans raw
    | some path =>
        rcases probeCandidate_onDisk probed onDisk raw with ⟨abs, unreadable, made, -, -, -, rfl⟩
        cases firstPath.trans named
        exact PathBuf.clean_of_absolutize made
  exact (clean otherMem).eq_of_components (clean mem) same

/-- A directory is flagged for what is in it where it is the first one around a secret. -/
theorem mem_secretParents_iff :
    dir ∈ (((inTier host tier candidates).filter fun entry => entry.secret || entry.coversSecret)
        |>.filterMap (parentIn (dirsOf (inTier host tier candidates)))) ↔
      ∃ entry path, GoesUnder host (probeExistence host candidates).1 entry path ∧
        entry.secret = true ∧
          FirstAround host tier (probeExistence host candidates).1 path dir := by
  simp only [List.mem_filterMap, List.mem_filter, Bool.or_eq_true]
  constructor
  · rintro ⟨left, ⟨mem, flagged⟩, parent⟩
    rcases Option.bind_eq_some_iff.mp parent with ⟨path, named, found⟩
    rcases inTier_secret_iff mem named with ⟨secretIff, uncovered⟩
    rw [uncovered] at flagged
    rcases secretIff.mp (flagged.resolve_right Bool.false_ne_true) with ⟨entry, goesUnder, secret⟩
    exact ⟨entry, path, goesUnder, secret, find?_dirsOf_inTier_eq_some_iff.mp found⟩
  · rintro ⟨entry, path, goesUnder, secret, first⟩
    rcases exists_dedupe_of_goesUnder goesUnder with ⟨left, leftMem, named, -⟩
    have mem := promoteEntry_mem_inTier first.1 leftMem named first.2.1
    have promoted : (promoteEntry
        (innerPaths (dedupeByPath host (probeExistence host candidates).1)) left).path =
          some path := by
      rw [path_promoteEntry, named]
    refine ⟨_, ⟨mem, Or.inl
      ((inTier_secret_iff mem promoted).1.mpr ⟨entry, goesUnder, secret⟩)⟩, ?_⟩
    rw [parentIn, promoted, Option.bind_some]
    exact find?_dirsOf_inTier_eq_some_iff.mpr first

/-- A directory that stays in a plan destroys a secret, as the plan says, exactly where it is
known to take one. -/
theorem destroysSecret_iff {kept : Present}
    (keptMem : kept ∈ (collapseNested (inTier host tier candidates)).1) (kind : kept.kind = .dir)
    (named : kept.path = some dir) :
    (measureEntry kept).destroysSecret = true ↔
      ToldOf host tier (probeExistence host candidates).1 dir := by
  rcases mem_collapseNested_iff.mp keptMem with ⟨left, mem, -, rfl⟩
  have named : left.path = some dir := named
  have isDir := mem_dirsOf_iff.mpr ⟨left, mem, kind, named⟩
  rcases inTier_secret_iff mem named with ⟨secretIff, uncovered⟩
  have covers : (((inTier host tier candidates).filter fun entry =>
        entry.secret || entry.coversSecret).filterMap
          (parentIn (dirsOf (inTier host tier candidates)))).any
            (fun parent => parent.components == dir.components) = true ↔
      ∃ entry path, GoesUnder host (probeExistence host candidates).1 entry path ∧
        entry.secret = true ∧
        FirstAround host tier (probeExistence host candidates).1 path dir := by
    rw [← mem_secretParents_iff, List.any_eq_true]
    constructor
    · rintro ⟨parent, parentMem, same⟩
      rcases mem_secretParents_iff.mp parentMem with ⟨entry, path, -, -, first⟩
      cases eq_of_components_of_mem_dirsOf isDir (goesAt_iff.mp first.1) (beq_iff_eq.mp same)
      exact parentMem
    · intro parentMem
      exact ⟨dir, parentMem, beq_self_eq_true _⟩
  simp only [measureEntry, PurgeEntry.destroysSecret, uncovered, Bool.false_or, named,
    Option.any_some, Bool.or_eq_true, secretIff, covers]
  constructor
  · rintro (⟨entry, goesUnder, secret⟩ | ⟨entry, path, goesUnder, secret, first⟩)
    · exact ⟨entry, dir, goesUnder, secret, Or.inl rfl⟩
    · exact ⟨entry, path, goesUnder, secret, Or.inr first⟩
  · rintro ⟨entry, path, goesUnder, secret, rfl | first⟩
    · exact Or.inl ⟨entry, goesUnder, secret⟩
    · exact Or.inr ⟨entry, path, goesUnder, secret, first⟩

theorem mem_finishPlan_entries_iff {request : PlanRequest} {refused : List SkippedEntry}
    {listed : PurgeEntry} :
    listed ∈ (finishPlan host request candidates refused).entries ↔
      ∃ kept ∈ (collapseNested (inTier host request.tier candidates)).1,
        listed = measureEntry kept := by
  simp only [finishPlan, orderForRemoval, (List.mergeSort_perm ..).mem_iff, List.mem_map, inTier,
    eq_comm]

/-- Something that is at the path of an entry of the tier has been merged into it. -/
theorem secret_of_sameKey {raw : PathBuf} (mem : left ∈ inTier host tier candidates)
    (named : left.path = some raw) (entryMem : entry ∈ (probeExistence host candidates).1)
    (secret : entry.secret = true) (entryNamed : entry.path = some path)
    (same : dedupeKey host path = dedupeKey host raw) : left.secret = true := by
  rcases mem_inTier_iff.mp mem with ⟨survivor, survivorMem, rfl, -⟩
  rw [path_promoteEntry] at named
  rw [secret_promoteEntry, dedupe_secret_iff survivorMem named]
  rcases mem_dedupeByPath_iff.mp survivorMem with ⟨unnamed, -⟩ | ⟨key, first, rest, ofKey, rfl⟩
  · cases unnamed.symm.trans named
  · rw [(foldl_merge_kind_path first rest).2] at named
    refine ⟨entry, (goesUnder_iff ofKey named).mpr ?_, secret⟩
    rw [← ofKey]
    have firstKey := key_of_itemsOf ofKey
    rw [Present.dedupeKey?, named, Option.map_some] at firstKey
    apply List.mem_filter.mpr
    refine ⟨entryMem, ?_⟩
    rw [Present.dedupeKey?, entryNamed, Option.map_some, same, firstKey]
    exact decide_eq_true rfl

/-- A plan warns of every secret that it destroys if and only if every outermost directory
that is removed with a secret in it is known to take one. -/
theorem warns_iff (host : Host) (request : PlanRequest) (candidates : List Candidate)
    (refused : List SkippedEntry) :
    Warns host (probeExistence host candidates).1 (finishPlan host request candidates refused) ↔
      SecretsSurface host request.tier (probeExistence host candidates).1 := by
  constructor
  · rintro warns dir goes outermost ⟨entry, entryMem, secret, path, named, strict⟩
    rcases mem_dirsOf_iff.mp (goesAt_iff.mp goes) with ⟨left, leftMem, kind, leftNamed⟩
    have alone : standsAlone (dirsOf (inTier host request.tier candidates)) left = true := by
      by_contra nested
      rw [Bool.not_eq_true, standsAlone_eq_false_iff] at nested
      rcases nested with ⟨own, ownNamed, outer, outerMem, inside⟩
      cases leftNamed.symm.trans ownNamed
      cases (outermost outer (goesAt_iff.mpr outerMem)).symm.trans inside
    have keptMem := mem_collapseNested_iff.mpr ⟨left, leftMem, alone, rfl⟩
    have carried := components_display_of_mem_dirsOf (goesAt_iff.mp goes)
    rw [← destroysSecret_iff keptMem kind leftNamed]
    refine (warns entry entryMem secret _
      (mem_finishPlan_entries_iff.mpr ⟨_, keptMem, rfl⟩) ?_).1
    refine ⟨dir.display, Option.map_eq_some_iff.mpr ⟨dir, leftNamed, rfl⟩, path, named,
      Or.inr ⟨kind, ?_⟩⟩
    rw [PathBuf.isStrictDescendant_congr rfl carried]
    exact strict
  · intro surface entry entryMem secret listed listedMem removes
    suffices destroys : listed.destroysSecret = true from
      ⟨destroys, List.any_eq_true.mpr ⟨listed, listedMem, destroys⟩⟩
    rcases mem_finishPlan_entries_iff.mp listedMem with ⟨kept, keptMem, rfl⟩
    rcases mem_collapseNested_iff.mp keptMem with ⟨left, leftMem, alone, rfl⟩
    rcases removes with ⟨shown, shownEq, path, named, same | ⟨kind, strict⟩⟩
    · rcases Option.map_eq_some_iff.mp shownEq with ⟨raw, rawNamed, rfl⟩
      have flagged := secret_of_sameKey leftMem rawNamed entryMem secret named same
      simp [measureEntry, PurgeEntry.destroysSecret, flagged]
    · rcases Option.map_eq_some_iff.mp shownEq with ⟨dir, dirNamed, rfl⟩
      have isDir := mem_dirsOf_iff.mpr ⟨left, leftMem, kind, dirNamed⟩
      rw [destroysSecret_iff keptMem kind dirNamed]
      apply surface dir (goesAt_iff.mpr isDir)
      · intro outer goes
        rw [Bool.eq_false_iff]
        intro inside
        have nested := standsAlone_eq_false_iff.mpr
          ⟨dir, dirNamed, outer, goesAt_iff.mp goes, inside⟩
        cases alone.symm.trans nested
      · have carried := components_display_of_mem_dirsOf isDir
        refine ⟨entry, entryMem, secret, path, named, ?_⟩
        rw [← PathBuf.isStrictDescendant_congr rfl carried]
        exact strict

/-- A data directory in a prefix, with a key in it, in the order of a receipt. -/
def nestedData : List Candidate :=
  [.pathEntry "install_data" .dir (absolute ["opt", "cloto", "data"]) .userData .receipt,
    { Candidate.pathEntry "seal_key" .file (absolute ["opt", "cloto", "data", "seal.key"])
        .userData .receipt with secret := true },
    .pathEntry "install_prefix" .dir (absolute ["opt", "cloto"]) .application .receipt]

/-- The flag of the inner directory is lost with it. -/
theorem nested_secret_untold :
    ¬ ∀ host request candidates refused,
      Warns host (probeExistence host candidates).1
        (finishPlan host request candidates refused) := by
  intro always
  let request : PlanRequest := { applicationOnly with tier := .userData }
  let key : Present := ⟨"seal_key", .file, some (absolute ["opt", "cloto", "data", "seal.key"]),
    none, none, .userData, .receipt, true, false, false⟩
  have keyMem : key ∈ (probeExistence fullHost nestedData).1 := by
    decide +kernel
  let listed : PurgeEntry := ⟨"install_prefix", .dir, some (absolute ["opt", "cloto"]), none, none,
    .userData, .receipt, false, false, false⟩
  have planned : (finishPlan fullHost request nestedData []).entries = [listed] := by
    decide +kernel
  have warned := always fullHost request nestedData [] key keyMem rfl listed
    (by rw [planned]; exact List.mem_cons_self)
    ⟨_, rfl, _, rfl, Or.inr ⟨rfl, by decide +kernel⟩⟩
  cases warned.1

end ClotoCore.Defender
