import ClotoCore.Defender.Housing

/-!
# The order in which the executor removes

The executor puts the entries in order again, by the data directory as the plan carries
it.  That changes nothing, and what really holds the receipt comes last, if the data
directory is spelled as it is.  Otherwise no two files or directories may be put in order
by a path that is not the receipt's.
-/

namespace ClotoCore.Defender

open ClotoCore.Encoding ClotoCore.Links ClotoCore.Sequence

/-- An entry is at or around the place where the receipt really is. -/
def HoldsReceipt (host : Host) (request : PlanRequest) (entry : PurgeEntry) : Prop :=
  ∃ real ∈ (receiptPath request.dataDir).lexical host.os host.currentDir,
    ∃ path ∈ entry.path, real.startsWith path = true

/-- The executor keeps the planner's order: what is deregistered comes first, and what
holds the receipt comes last. -/
structure Ordered (host : Host) (request : PlanRequest) (receipt : Option Receipt) : Prop where
  kept : executionOrder host.os (buildPlan host request receipt)
    = (buildPlan host request receipt).entries
  placed : (executionOrder host.os (buildPlan host request receipt)).Pairwise fun first second =>
    first.kind.onDisk = true →
      second.kind.onDisk = true ∧
        (HoldsReceipt host request first → HoldsReceipt host request second)

/-- What the planner orders by. -/
def plannerKey (host : Host) (request : PlanRequest) : PurgeEntry → RemovalKey :=
  PurgeEntry.removalKey host.os (some (receiptPath request.dataDir))

/-- The receipt of the data directory as the plan carries it. -/
def carriedReceipt (os : Os) (dataDir : PathBuf) : Option PathBuf :=
  if dataDir.display.isBlank os then none else some (receiptPath dataDir.display)

/-- What the executor orders by. -/
def executorKey (host : Host) (request : PlanRequest) : PurgeEntry → RemovalKey :=
  PurgeEntry.removalKey host.os (carriedReceipt host.os request.dataDir)

/-- A file or directory that the planner puts before another one is not put after it by
the executor, and does not hold the receipt unless the other one does. -/
def Aligned (host : Host) (request : PlanRequest) (receipt : Option Receipt) : Prop :=
  ∀ first ∈ listedEntries host request receipt, ∀ second ∈ listedEntries host request receipt,
    first.kind.onDisk = true → second.kind.onDisk = true →
      plannerKey host request first < plannerKey host request second →
        executorKey host request first ≤ executorKey host request second ∧
          (HoldsReceipt host request first → HoldsReceipt host request second)

/-- A data directory that is spelled as it is: absolute, clean and as text. -/
structure Plain (os : Os) (dataDir : PathBuf) : Prop where
  isAbsolute : dataDir.isAbsolute os = true
  clean : dataDir.Clean
  isText : dataDir.display = dataDir

/-- The data directory is spelled as it is, or of what is left nothing is put by it before
what the executor puts it after, nor what holds the receipt before what does not. -/
def Sequenced (host : Host) (request : PlanRequest) (receipt : Option Receipt) : Prop :=
  ¬ Plain host.os request.dataDir →
    ∀ first ∈ leftOver host request receipt, ∀ second ∈ leftOver host request receipt,
      first.kind.onDisk = true → second.kind.onDisk = true →
        plannerKey host request (measureEntry first)
            < plannerKey host request (measureEntry second) →
          executorKey host request (measureEntry first)
              ≤ executorKey host request (measureEntry second) ∧
            (HoldsReceipt host request (measureEntry first) →
              HoldsReceipt host request (measureEntry second))

/-- Two paths that are listed with one text are one path. -/
def Spelled (host : Host) (request : PlanRequest) (receipt : Option Receipt) : Prop :=
  ∀ first ∈ listedEntries host request receipt, ∀ second ∈ listedEntries host request receipt,
    first.kind.onDisk = true → second.kind.onDisk = true →
      first.text host.os = second.text host.os → first.path = second.path

variable {host : Host} {request : PlanRequest} {receipt : Option Receipt} {os : Os}
  {entry first second : PurgeEntry} {receiptAt otherReceipt : Option PathBuf} {path : PathBuf}

/-! ## Keys -/

/-- The part of a key that does not depend on the receipt. -/
def PurgeEntry.depthKey (os : Os) (entry : PurgeEntry) :
    Natᵒᵈ ×ₗ List (List Nat) ×ₗ List Nat :=
  toLex (OrderDual.toDual entry.depth, toLex (entry.text os, (utf8 entry.id).map UInt8.toNat))

theorem removalKey_eq : entry.removalKey os receiptAt
    = toLex (entry.rank os receiptAt, entry.depthKey os) :=
  rfl

theorem rank_of_not_onDisk (off : entry.kind.onDisk ≠ true) : entry.rank os receiptAt = 0 :=
  if_neg off

theorem rank_pos_of_onDisk (onDisk : entry.kind.onDisk = true) : 0 < entry.rank os receiptAt := by
  rw [PurgeEntry.rank, if_pos onDisk]
  split
  · exact Nat.zero_lt_two
  · exact Nat.zero_lt_one

theorem rank_congr (kinds : first.kind.onDisk = second.kind.onDisk)
    (paths : first.path = second.path) :
    first.rank os receiptAt = second.rank os receiptAt := by
  unfold PurgeEntry.rank holdsReceipt
  rw [kinds, paths]

theorem removalKey_lt_iff : first.removalKey os receiptAt < second.removalKey os receiptAt ↔
    first.rank os receiptAt < second.rank os receiptAt ∨
      first.rank os receiptAt = second.rank os receiptAt ∧
        first.depthKey os < second.depthKey os :=
  Prod.Lex.toLex_lt_toLex

theorem removalKey_eq_iff : first.removalKey os receiptAt = second.removalKey os receiptAt ↔
    first.rank os receiptAt = second.rank os receiptAt ∧
      first.depthKey os = second.depthKey os := by
  rw [removalKey_eq, removalKey_eq, toLex_inj, Prod.mk.injEq]

/-- A file or directory comes after what is deregistered. -/
theorem onDisk_of_le (le : first.rank os receiptAt ≤ second.rank os receiptAt)
    (onDisk : first.kind.onDisk = true) : second.kind.onDisk = true := by
  by_contra off
  have zero := @rank_of_not_onDisk os second receiptAt off
  have pos := @rank_pos_of_onDisk os first receiptAt onDisk
  omega

/-- What is deregistered is put in order without the receipt. -/
theorem removalKey_lt_of_not_onDisk (off : first.kind.onDisk ≠ true)
    (before : first.removalKey os receiptAt < second.removalKey os receiptAt) :
    first.removalKey os otherReceipt < second.removalKey os otherReceipt := by
  rw [removalKey_lt_iff] at before ⊢
  rw [rank_of_not_onDisk off] at before ⊢
  by_cases onDisk : second.kind.onDisk = true
  · exact Or.inl (rank_pos_of_onDisk onDisk)
  · rw [rank_of_not_onDisk onDisk] at before ⊢
    exact before

/-! ## The two orders -/

theorem entries_eq_sortBy : (buildPlan host request receipt).entries
    = sortBy (plannerKey host request) (listedEntries host request receipt) :=
  rfl

theorem executionOrder_eq_sortBy : executionOrder host.os (buildPlan host request receipt)
    = sortBy (executorKey host request) (buildPlan host request receipt).entries :=
  rfl

/-- What the executor keeps of two entries in their order. -/
def Kept (host : Host) (request : PlanRequest) (first second : PurgeEntry) : Prop :=
  executorKey host request first ≤ executorKey host request second ∧
    (first.kind.onDisk = true → second.kind.onDisk = true ∧
      (HoldsReceipt host request first → HoldsReceipt host request second))

theorem ordered_iff_pairwise :
    Ordered host request receipt ↔
      (sortBy (plannerKey host request) (listedEntries host request receipt)).Pairwise
        (Kept host request) := by
  constructor
  · rintro ⟨kept, placed⟩
    rw [kept, entries_eq_sortBy] at placed
    rw [executionOrder_eq_sortBy, sortBy_eq_self_iff, entries_eq_sortBy] at kept
    exact kept.and placed
  · intro both
    have kept : executionOrder host.os (buildPlan host request receipt)
        = (buildPlan host request receipt).entries := by
      rw [executionOrder_eq_sortBy, sortBy_eq_self_iff, entries_eq_sortBy]
      exact both.imp And.left
    refine ⟨kept, ?_⟩
    rw [kept, entries_eq_sortBy]
    exact both.imp And.right

theorem HoldsReceipt.of_path (same : first.path = second.path)
    (holds : HoldsReceipt host request first) : HoldsReceipt host request second := by
  rcases holds with ⟨real, isReal, path, named, within⟩
  exact ⟨real, isReal, path, same ▸ named, within⟩

/-- Entries with one key are the same for the executor. -/
theorem kept_of_key_eq (spelled : Spelled host request receipt)
    (firstMem : first ∈ listedEntries host request receipt)
    (secondMem : second ∈ listedEntries host request receipt)
    (same : plannerKey host request first = plannerKey host request second) :
    Kept host request first second := by
  rcases removalKey_eq_iff.mp same with ⟨ranks, depths⟩
  by_cases onDisk : first.kind.onDisk = true
  · have secondDisk := onDisk_of_le (Nat.le_of_eq ranks) onDisk
    have texts : first.text host.os = second.text host.os := by
      have inner := (Prod.mk.inj (toLex_inj.mp depths)).2
      exact (Prod.mk.inj (toLex_inj.mp inner)).1
    have paths := spelled first firstMem second secondMem onDisk secondDisk texts
    refine ⟨le_of_eq (removalKey_eq_iff.mpr ⟨?_, depths⟩), fun _ => ⟨secondDisk, ?_⟩⟩
    · exact rank_congr (onDisk.trans secondDisk.symm) paths
    · exact HoldsReceipt.of_path paths
  · have secondOff : second.kind.onDisk ≠ true := fun secondDisk =>
      onDisk (onDisk_of_le (Nat.le_of_eq ranks.symm) secondDisk)
    refine ⟨le_of_eq (removalKey_eq_iff.mpr ⟨?_, depths⟩), fun onDisk' => absurd onDisk' onDisk⟩
    rw [rank_of_not_onDisk onDisk, rank_of_not_onDisk secondOff]

/-- The executor keeps the planner's order, with what holds the receipt last, exactly if
no two files or directories are put in order by a path that is not the receipt's. -/
theorem ordered_iff (spelled : Spelled host request receipt) :
    Ordered host request receipt ↔ Aligned host request receipt := by
  rw [ordered_iff_pairwise, pairwise_sortBy_iff fun first firstMem second secondMem same =>
    kept_of_key_eq spelled firstMem secondMem same]
  constructor
  · intro kept first firstMem second secondMem onDisk secondDisk before
    rcases kept first firstMem second secondMem before with ⟨le, placed⟩
    exact ⟨le, (placed onDisk).2⟩
  · intro aligned first firstMem second secondMem before
    by_cases onDisk : first.kind.onDisk = true
    · have secondDisk : second.kind.onDisk = true := by
        apply @onDisk_of_le host.os first second (some (receiptPath request.dataDir)) _ onDisk
        rcases removalKey_lt_iff.mp before with less | equal
        · exact Nat.le_of_lt less
        · exact Nat.le_of_eq equal.1
      rcases aligned first firstMem second secondMem onDisk secondDisk before with ⟨le, holds⟩
      exact ⟨le, fun _ => ⟨secondDisk, holds⟩⟩
    · exact ⟨le_of_lt (removalKey_lt_of_not_onDisk onDisk before),
        fun onDisk' => absurd onDisk' onDisk⟩

/-! ## A data directory that is the real one -/

theorem receiptPath_of_plain (plain : Plain os request.dataDir) :
    (receiptPath request.dataDir).isAbsolute os = true ∧ (receiptPath request.dataDir).Clean := by
  have joined : receiptPath request.dataDir = { request.dataDir with
      pieces := request.dataDir.pieces ++ [.normal (utf8 "installed.json")] } := by
    simp [receiptPath, PathBuf.join, relative]
  rw [joined]
  refine ⟨plain.isAbsolute, ?_⟩
  intro piece mem
  rcases List.mem_append.mp mem with before | last
  · exact plain.clean piece before
  · exact ⟨_, List.mem_singleton.mp last⟩

/-- What holds the receipt of such a directory is known by the path of the receipt. -/
theorem holdsReceipt_iff_of_plain (plain : Plain host.os request.dataDir) :
    HoldsReceipt host request entry ↔
      ∃ path ∈ entry.path, (receiptPath request.dataDir).startsWith path = true := by
  rcases receiptPath_of_plain plain with ⟨isAbs, clean⟩
  unfold HoldsReceipt
  rw [PathBuf.lexical_of_clean isAbs clean]
  constructor
  · rintro ⟨real, isReal, path, named, within⟩
    cases isReal
    exact ⟨path, named, within⟩
  · rintro ⟨path, named, within⟩
    exact ⟨_, rfl, path, named, within⟩

/-- What is around an absolute path, and more than a filesystem, is absolute. -/
theorem rooted_of_startsWith {real : PathBuf} (rooted : real.rooted = true)
    (within : real.startsWith path = true) (inner : path.isFilesystemRoot = false) :
    path.rooted = true := by
  rw [← rootDir_mem_iff]
  by_contra unrooted
  have leads := PathBuf.startsWith_iff.mp within
  have drives : ∀ component ∈ path.components, ∃ name, component = .drive name := by
    have split : real.components = real.drive.toList.map .drive ++ .rootDir ::
        real.pieces.filterMap Piece.component? := by
      simp [PathBuf.components, PathBuf.anchor, rooted]
    rw [split] at leads
    cases drive : real.drive with
    | none =>
        rw [drive] at leads
        cases parts : path.components with
        | nil => simp
        | cons first rest =>
            rw [parts] at leads unrooted
            rcases List.cons_prefix_cons.mp leads with ⟨rfl, -⟩
            exact absurd List.mem_cons_self unrooted
    | some name =>
        rw [drive] at leads
        cases parts : path.components with
        | nil => simp
        | cons first rest =>
            rw [parts] at leads unrooted
            rcases List.cons_prefix_cons.mp leads with ⟨rfl, restLeads⟩
            cases rest with
            | nil => simp
            | cons second rest =>
                rcases List.cons_prefix_cons.mp restLeads with ⟨rfl, -⟩
                exact absurd (List.mem_cons_of_mem _ List.mem_cons_self) unrooted
  have isRoot : path.isFilesystemRoot = true := by
    apply List.all_eq_true.mpr
    intro component mem
    rcases drives component mem with ⟨name, rfl⟩
    rfl
  rw [isRoot] at inner
  cases inner

theorem text_ne_nil_of_rooted (rooted : path.rooted = true) : path.text os ≠ [] := by
  simp [PathBuf.text, rooted]

/-- Where the data directory is spelled as it is, the entries are put in order by the
place of the receipt. -/
theorem aligned_of_plain (plain : Plain host.os request.dataDir) :
    Aligned host request receipt := by
  rcases receiptPath_of_plain plain with ⟨isAbs, -⟩
  have keys : executorKey host request = plannerKey host request := by
    have rooted : request.dataDir.rooted = true := (Bool.and_eq_true_iff.mp plain.isAbsolute).1
    unfold executorKey plannerKey carriedReceipt
    rw [plain.isText, if_neg]
    simp [PathBuf.isBlank, rooted]
  intro first firstMem second secondMem onDisk secondDisk before
  refine ⟨?_, ?_⟩
  · rw [keys]
    exact le_of_lt before
  · intro holds
    rw [holdsReceipt_iff_of_plain plain] at holds ⊢
    rcases holds with ⟨path, named, within⟩
    have inner := (clean_of_mem_listed firstMem onDisk named).1
    have rooted := rooted_of_startsWith (Bool.and_eq_true_iff.mp isAbs).1 within inner
    have last : first.rank host.os (some (receiptPath request.dataDir)) = 2 := by
      have holdsFirst : holdsReceipt host.os first (some (receiptPath request.dataDir)) = true := by
        unfold holdsReceipt
        rw [Option.mem_def.mp named]
        simp [text_ne_nil_of_rooted rooted, within]
      rw [PurgeEntry.rank, if_pos onDisk, if_pos holdsFirst]
    have secondLast : 2 ≤ second.rank host.os (some (receiptPath request.dataDir)) := by
      rcases removalKey_lt_iff.mp before with less | equal
      · omega
      · omega
    rw [PurgeEntry.rank, if_pos secondDisk] at secondLast
    split at secondLast
    · next holdsSecond =>
      unfold holdsReceipt at holdsSecond
      cases secondNamed : second.path with
      | none =>
          rw [secondNamed] at holdsSecond
          cases holdsSecond
      | some other =>
          rw [secondNamed] at holdsSecond
          exact ⟨other, rfl, (Bool.and_eq_true_iff.mp holdsSecond).2⟩
    · omega

/-- What is left is put in order by the data directory exactly if what is listed is. -/
theorem aligned_iff : Aligned host request receipt ↔ Sequenced host request receipt := by
  constructor
  · intro aligned _ first firstMem second secondMem firstDisk secondDisk before
    rcases exists_listed_of_mem_leftOver firstMem with ⟨_, firstListed, covers, rfl⟩
    rcases exists_listed_of_mem_leftOver secondMem with ⟨_, secondListed, secondCovers, rfl⟩
    have ordered := aligned _ firstListed _ secondListed
    exact ordered firstDisk secondDisk before
  · intro sequenced
    by_cases plain : Plain host.os request.dataDir
    · exact aligned_of_plain plain
    · intro first firstMem second secondMem firstDisk secondDisk before
      rcases exists_left_of_mem_listed firstMem with ⟨left, leftMem, covers, rfl⟩
      rcases exists_left_of_mem_listed secondMem with ⟨other, otherMem, otherCovers, rfl⟩
      exact sequenced plain left leftMem other otherMem firstDisk secondDisk before

/-- The executor accepts what the planner offers and keeps its order exactly if what is
recorded outside of the data directory lies in the roots, what is there is of its kind, and
the data directory is spelled as it is or puts nothing in order that it does not hold. -/
theorem agrees_iff (limit : Nat) (unitFile : Option PathBuf) (machine : Machine)
    (spelled : Spelled host request receipt) :
    (Accepted host request receipt limit unitFile machine ∧ Ordered host request receipt) ↔
      (Housed host request receipt ∧ Kinded host request receipt limit machine) ∧
        Sequenced host request receipt := by
  rw [accepted_iff_housed, ordered_iff spelled, aligned_iff]

/-- The place that a path names in a tree. -/
def PathBuf.names (path : PathBuf) : Place Name :=
  path.components.filterMap fun component =>
    match component with
    | .normal name => some name
    | _ => none

/-- The planner on a machine with a tree that has no links. -/
def hostOf (tree : Links.Tree Name) : Host where
  os := .linux
  currentDir := none
  stat path := if (tree.find path.names).isSome then .present else .missing
  pathExists path := (tree.find path.names).isSome
  isFile path := tree.find path.names == some .file
  readDir path :=
    if tree.find path.names = some .dir then
      some ((tree.nodes.filter fun node => node.1.dropLast = path.names).filterMap fun node =>
        node.1.getLast?)
    else none
  sameFile first second := first.names == second.names
  toLowercase := id

/-- A machine with the program, its data and its unit, and a database elsewhere. -/
def homeTree : Links.Tree Name where
  nodes :=
    [([utf8 "home"], .dir), ([utf8 "home", utf8 "u"], .dir),
      ([utf8 "home", utf8 "u", utf8 "cloto-system"], .dir),
      ([utf8 "home", utf8 "u", utf8 "cloto-system", utf8 "cloto_memories.db"], .file),
      ([utf8 "home", utf8 "u", utf8 "cloto-system", utf8 "cloto_memories.db-wal"], .file),
      ([utf8 "home", utf8 "u", utf8 "cloto-system", utf8 "installed.json"], .file),
      ([utf8 "home", utf8 "u", utf8 "cloto-system", utf8 "logs"], .dir),
      ([utf8 "usr"], .dir), ([utf8 "usr", utf8 "bin"], .dir),
      ([utf8 "usr", utf8 "bin", utf8 "cloto"], .file),
      ([utf8 "usr", utf8 "bin", utf8 ".env"], .file),
      ([utf8 "etc"], .dir), ([utf8 "etc", utf8 "systemd"], .dir),
      ([utf8 "etc", utf8 "systemd", utf8 "system"], .dir),
      ([utf8 "etc", utf8 "systemd", utf8 "system", utf8 "cloto.service"], .file),
      ([utf8 "var"], .dir), ([utf8 "var", utf8 "lib"], .dir),
      ([utf8 "var", utf8 "lib", utf8 "memories.db"], .file)]
  named := by decide +kernel
  distinct := by decide +kernel
  grounded := by decide +kernel

/-- An uninstall from a home directory. -/
def homeRequest (tier : PurgeTier) (databasePath : Option PathBuf) : PlanRequest where
  dataDir := absolute ["home", "u", "cloto-system"]
  tier := tier
  installPrefix := none
  roots := ⟨some (absolute ["home", "u"]), none, none, none, some (absolute ["usr", "bin"]),
    some (absolute ["usr", "bin", "cloto"]), none, none, none, some (absolute ["usr", "share"])⟩
  databasePath := databasePath

/-- A kernel that is told where its database is. -/
def homeProcess (databasePath : Option PathBuf) : Process where
  exe := some (absolute ["usr", "bin", "cloto"])
  exeDir := absolute ["usr", "bin"]
  configDataDir := absolute ["home", "u", "cloto-system"]
  envPath := none
  databasePath := databasePath

/-- The receipt that the kernel writes at its start. -/
def bootReceipt (host : Host) (process : Process) : Receipt :=
  .record process.configDataDir ⟨"0.6.8", "2026-07-27T00:00:00Z"⟩ none
    (bootEntries host process process.configDataDir)

/-- The machine with that tree. -/
def homeMachine : Machine where
  tree := homeTree
  registered := false
  keys := []

theorem agrees_home :
    Accepted (hostOf homeTree) (homeRequest .everything none)
        (some (bootReceipt (hostOf homeTree) (homeProcess none))) 40 (some systemdUnit)
        homeMachine ∧
      Ordered (hostOf homeTree) (homeRequest .everything none)
        (some (bootReceipt (hostOf homeTree) (homeProcess none))) := by
  have spelled : Spelled (hostOf homeTree) (homeRequest .everything none)
      (some (bootReceipt (hostOf homeTree) (homeProcess none))) := by
    unfold Spelled
    decide +kernel
  rw [agrees_iff 40 (some systemdUnit) homeMachine spelled]
  refine ⟨⟨⟨?_, ?_, ?_⟩, ?_⟩, ?_⟩
  · have named : ∀ candidate ∈ (collectCandidates (hostOf homeTree) (homeRequest .everything none)
        (some (bootReceipt (hostOf homeTree) (homeProcess none)))
        (foundOn (hostOf homeTree) (homeRequest .everything none))).1,
        candidate.kind.onDisk = true → candidate.path ≠ none := by
      decide +kernel
    intro candidate mem onDisk _
    exact named candidate mem onDisk
  · have lodged : ∀ candidate ∈ recordedCandidates (hostOf homeTree)
        (some (bootReceipt (hostOf homeTree) (homeProcess none))), ∀ path ∈ candidate.path,
        ∀ place ∈ path.absolutize .linux none,
          place.startsWith (absolute ["home", "u", "cloto-system"]) = true ∨
            ∃ root ∈ layoutRoots (hostOf homeTree) (homeRequest .everything none),
              isWithin .linux root place = true := by
      decide +kernel
    intro candidate mem _ path named place made _ outside
    rcases lodged candidate mem path named place made with inData | inRoot
    · have proper : (homeRequest .everything none).dataDir.Proper .linux :=
        ⟨by decide +kernel, absolute_clean _, by decide +kernel⟩
      cases inData.symm.trans (outside proper)
    · exact inRoot
  · rintro candidate - - path - ⟨dir, listed, -, improper⟩
    have named : ∃ names, dir = absolute names ∧ names ≠ [] := by
      simp [layoutDirs, homeRequest] at listed
      rcases listed with rfl | rfl | rfl
      all_goals exact ⟨_, rfl, List.cons_ne_nil _ _⟩
    rcases named with ⟨names, rfl, nonempty⟩
    exact absurd (proper_absolute nonempty) improper
  · have kinded : ∀ left ∈ leftOver (hostOf homeTree) (homeRequest .everything none)
        (some (bootReceipt (hostOf homeTree) (homeProcess none))), ∀ path ∈ left.path,
        ∀ place ∈ (homeTree.locate 40 (path.way .linux)).toOption,
          (left.kind = .dir → homeTree.find place ≠ some .file) ∧
            (left.kind = .file → homeTree.find place ≠ some .dir) := by
      decide +kernel
    intro left mem _ path named place located
    apply kinded left mem path named
    rw [show homeTree.locate 40 (path.way .linux) = .ok place from located]
    rfl
  · intro rough
    exact absurd ⟨rfl, absolute_clean _, by decide +kernel⟩ rough

/-- A database outside of the roots is offered to be removed and then refused. -/
theorem moved_database_refused :
    ¬ (Accepted (hostOf homeTree)
        (homeRequest .userData (some (absolute ["var", "lib", "memories.db"])))
        (some (bootReceipt (hostOf homeTree)
          (homeProcess (some (absolute ["var", "lib", "memories.db"]))))) 40 (some systemdUnit)
        homeMachine ∧
      Ordered (hostOf homeTree)
        (homeRequest .userData (some (absolute ["var", "lib", "memories.db"])))
        (some (bootReceipt (hostOf homeTree)
          (homeProcess (some (absolute ["var", "lib", "memories.db"])))))) := by
  rintro ⟨accepted, -⟩
  have covered := (accepted_iff.mp accepted).1
  revert covered
  unfold Covered
  decide +kernel

end ClotoCore.Defender
