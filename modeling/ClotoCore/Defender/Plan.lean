import ClotoCore.Defender.Candidates
import ClotoCore.Lookup.Merged
import Mathlib.Data.List.Lex
import Mathlib.Data.Prod.Lex

/-!
# The purge plan

A candidate is probed, merged with the others of its path, raised to the widest tier that
is found in it, left out if it is above the requested tier or lies in a directory that is
removed anyway, and put in the order of the removal.
-/

namespace ClotoCore.Defender

open ClotoCore.Encoding ClotoCore.Lookup

/-- `Present` -/
structure Present where
  id : String
  kind : PurgeKind
  path : Option PathBuf
  key : Option String
  name : Option String
  tier : PurgeTier
  source : PurgeSource
  secret : Bool
  coversSecret : Bool
  unreadable : Bool
  deriving DecidableEq

/-- `PurgeEntry`, without sizes. -/
structure PurgeEntry where
  id : String
  kind : PurgeKind
  path : Option PathBuf
  key : Option String
  name : Option String
  tier : PurgeTier
  source : PurgeSource
  unreadable : Bool
  secret : Bool
  coversSecret : Bool
  deriving DecidableEq

/-- `PurgePlan`, without what it says about itself in notes. -/
structure PurgePlan where
  planVersion : Nat
  tier : PurgeTier
  dataDir : PathBuf
  entries : List PurgeEntry
  skipped : List SkippedEntry

/-- `PLAN_VERSION` -/
def planVersion : Nat := 1

/-- A candidate that goes on, with its path. -/
def Candidate.present (candidate : Candidate) (path : Option PathBuf) (unreadable : Bool) :
    Present where
  id := candidate.id
  kind := candidate.kind
  path := path
  key := candidate.key
  name := candidate.name
  tier := candidate.tier
  source := candidate.source
  secret := candidate.secret
  coversSecret := false
  unreadable := unreadable

/-- One candidate of `probe_existence`. -/
def probeCandidate (host : Host) (candidate : Candidate) : Present ⊕ SkippedEntry :=
  match candidate.kind.onDisk, candidate.path with
  | true, some path =>
      match path.absolutize host.os host.currentDir with
      | none => .inr ⟨candidate.id, .unsafePath, some path.display⟩
      | some abs =>
          if abs.isFilesystemRoot then .inr ⟨candidate.id, .unsafePath, some abs.display⟩
          else if abs.representable = none then
            .inr ⟨candidate.id, .unsafePath, some abs.display⟩
          else
            match host.stat abs with
            | .present => .inl (candidate.present (some abs) false)
            | .unreadable => .inl (candidate.present (some abs) true)
            | .missing => .inr ⟨candidate.id, .absent, some abs.display⟩
  | _, _ => .inl (candidate.present candidate.path false)

/-- `probe_existence` -/
def probeExistence (host : Host) (candidates : List Candidate) : List Present × List SkippedEntry :=
  (candidates.filterMap fun candidate => (probeCandidate host candidate).getLeft?,
    candidates.filterMap fun candidate => (probeCandidate host candidate).getRight?)

/-- `dedupe_key` -/
def dedupeKey (host : Host) (path : PathBuf) : PathBuf :=
  if host.os = .windows then host.toLowercase path.display else path.display

/-- A later candidate of a path is merged into the first. -/
def Present.merge (winner entry : Present) : Present :=
  let renamed := winner.source ≠ .receipt ∧ entry.source = .receipt
  { winner with
    tier := max winner.tier entry.tier
    secret := winner.secret || entry.secret
    unreadable := winner.unreadable || entry.unreadable
    source := if renamed then entry.source else winner.source
    id := if renamed then entry.id else winner.id }

/-- The key of a candidate, if it has a path. -/
def Present.dedupeKey? (host : Host) (entry : Present) : Option PathBuf :=
  entry.path.map (dedupeKey host)

/-- `dedupe_by_path` -/
def dedupeByPath (host : Host) (entries : List Present) : List Present :=
  mergeAll (Present.dedupeKey? host) Present.merge entries

/-- The paths of some candidates with their tiers. -/
def innerPaths (entries : List Present) : List (PathBuf × PurgeTier) :=
  entries.filterMap fun entry => entry.path.map fun path => (path, entry.tier)

/-- Raise a tier to those of the paths strictly within a directory. -/
def raise (dir : PathBuf) (inner : List (PathBuf × PurgeTier)) (tier : PurgeTier) : PurgeTier :=
  inner.foldl (fun tier path => if path.1.isStrictDescendant dir then max tier path.2 else tier) tier

/-- One entry of `promote_containers`. -/
def promoteEntry (inner : List (PathBuf × PurgeTier)) (entry : Present) : Present :=
  match entry.kind, entry.path with
  | .dir, some dir => { entry with tier := raise dir inner entry.tier }
  | _, _ => entry

/-- `promote_containers` -/
def promoteContainers (entries : List Present) : List Present :=
  entries.map (promoteEntry (innerPaths entries))

/-- `filter_by_tier` -/
def filterByTier (tier : PurgeTier) (entries : List Present) : List Present × List SkippedEntry :=
  (entries.filter fun entry => tier.includes entry.tier,
    (entries.filter fun entry => !tier.includes entry.tier).map fun entry =>
      ⟨entry.id, .aboveTier, entry.path.map PathBuf.display⟩)

/-- The directories of some entries. -/
def dirsOf (entries : List Present) : List PathBuf :=
  (entries.filter fun entry => entry.kind = .dir).filterMap Present.path

/-- The directory that an entry is found to be in. -/
def parentIn (dirs : List PathBuf) (entry : Present) : Option PathBuf :=
  entry.path.bind fun path => dirs.find? fun dir => path.isStrictDescendant dir

/-- Whether an entry is in no directory that is removed. -/
def standsAlone (dirs : List PathBuf) (entry : Present) : Bool :=
  (parentIn dirs entry).isNone

/-- `collapse_nested` -/
def collapseNested (entries : List Present) : List Present × List SkippedEntry :=
  let dirs := dirsOf entries
  let secretParents := (entries.filter fun entry => entry.secret || entry.coversSecret).filterMap
    (parentIn dirs)
  ((entries.filter (standsAlone dirs)).map fun entry =>
      { entry with
        coversSecret := entry.coversSecret || entry.path.any fun path =>
          secretParents.any fun parent => parent.components == path.components },
    (entries.filter fun entry => !standsAlone dirs entry).map fun entry =>
      ⟨entry.id, .coveredByParent, entry.path.map PathBuf.display⟩)

/-- `measure_entry` -/
def measureEntry (entry : Present) : PurgeEntry where
  id := entry.id
  kind := entry.kind
  path := entry.path.map PathBuf.display
  key := entry.key
  name := entry.name
  tier := entry.tier
  source := entry.source
  unreadable := entry.unreadable
  secret := entry.secret
  coversSecret := entry.coversSecret

/-- The byte between two components. -/
def Os.separator : Os → UInt8
  | .windows => 92
  | _ => 47

namespace PathBuf

/-- The bytes of a piece. -/
def pieceText : Piece → Bytes
  | .empty => []
  | .dot => [46]
  | .up => [46, 46]
  | .normal name => name

/-- The text of a path. -/
def text (os : Os) (path : PathBuf) : Bytes :=
  path.drive.getD [] ++ (if path.rooted then [os.separator] else []) ++
    [os.separator].intercalate (path.pieces.map pieceText)

end PathBuf

/-- `holds_receipt` -/
def holdsReceipt (os : Os) (entry : PurgeEntry) (receiptPath : Option PathBuf) : Bool :=
  match receiptPath, entry.path with
  | some receipt, some path => path.text os != [] && receipt.startsWith path
  | _, _ => false

/-- The number of components of what an entry names. -/
def PurgeEntry.depth (entry : PurgeEntry) : Nat :=
  match entry.path, entry.key with
  | some path, _ => path.components.length
  | none, some key => ((utf8 key).splitOn 92).length
  | none, none => 0

/-- The text that an entry is ordered by, if it has one. -/
def PurgeEntry.text (os : Os) (entry : PurgeEntry) : List (List Nat) :=
  match entry.path, entry.key with
  | some path, _ => [(path.text os).map UInt8.toNat]
  | none, some key => [(utf8 key).map UInt8.toNat]
  | none, none => []

/-- Deregistrations come first, and what holds the receipt comes last. -/
def PurgeEntry.rank (os : Os) (receiptPath : Option PathBuf) (entry : PurgeEntry) : Nat :=
  if entry.kind.onDisk then
    if holdsReceipt os entry receiptPath then 2 else 1
  else 0

/-- What the entries are ordered by, where a deeper path comes before one less deep. -/
abbrev RemovalKey : Type :=
  Nat ×ₗ Natᵒᵈ ×ₗ List (List Nat) ×ₗ List Nat

/-- The key that the entries of a plan are sorted by. -/
def PurgeEntry.removalKey (os : Os) (receiptPath : Option PathBuf) (entry : PurgeEntry) :
    RemovalKey :=
  toLex (entry.rank os receiptPath,
    toLex (OrderDual.toDual entry.depth, toLex (entry.text os, (utf8 entry.id).map UInt8.toNat)))

/-- `order_for_removal` -/
def orderForRemoval (os : Os) (entries : List PurgeEntry) (receiptPath : Option PathBuf) :
    List PurgeEntry :=
  entries.mergeSort fun first second =>
    decide (first.removalKey os receiptPath ≤ second.removalKey os receiptPath)

/-- The candidates that are left at the requested tier, before those in a directory that
is removed anyway go. -/
def inTier (host : Host) (tier : PurgeTier) (candidates : List Candidate) : List Present :=
  (filterByTier tier
    (promoteContainers (dedupeByPath host (probeExistence host candidates).1))).1

/-- `finish_plan` -/
def finishPlan (host : Host) (request : PlanRequest) (candidates : List Candidate)
    (refused : List SkippedEntry) : PurgePlan :=
  let probe := probeExistence host candidates
  let filtered := filterByTier request.tier (promoteContainers (dedupeByPath host probe.1))
  let collapsed := collapseNested filtered.1
  { planVersion := planVersion
    tier := request.tier
    dataDir := request.dataDir.display
    entries := orderForRemoval host.os (collapsed.1.map measureEntry)
      (some (receiptPath request.dataDir))
    skipped := refused ++ probe.2 ++ filtered.2 ++ collapsed.2 }

/-- `build_plan`, with what the platform and the scan have found. -/
def planOf (host : Host) (request : PlanRequest) (receipt : Option Receipt)
    (found : List Candidate) : PurgePlan :=
  let collected := collectCandidates host request receipt found
  finishPlan host request collected.1 collected.2

/-- `build_plan` -/
def buildPlan (host : Host) (request : PlanRequest) (receipt : Option Receipt) : PurgePlan :=
  planOf host request receipt
    (platformCandidates host request.roots ++ legacyCandidates host request)

end ClotoCore.Defender
