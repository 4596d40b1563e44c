import ClotoCore.Marketplace.Entries
import ClotoCore.Mcp.EntryPoint
import ClotoCore.Path.Opening
import Mathlib.Data.List.ReduceOption

/-!
# Uninstalling a marketplace server

The directory of a server is sought under three names: the one that the catalog has for
its id, the one that its registered arguments lie under, and the id itself.  The first that
is a directory inside the servers root is removed.  Whose directory it is is not asked.
-/

namespace ClotoCore.Marketplace

open ClotoCore.Encoding ClotoCore.Links
open ClotoCore.Defender (Name PathBuf ReceiptEntry removePath pathTarget reach)

section Disk

variable (host : Host) (tree : Links.Tree Name)

/-- `canonicalize` -/
def canonicalize (path : PathBuf) : Except Stop (Place Name) :=
  tree.follow host.platform.limit [] (path.way host.platform.os)

/-- `is_dir` -/
def isDir (path : PathBuf) : Bool :=
  match canonicalize host tree path with
  | .ok place => tree.find place = some .dir
  | .error _ => false

/-- Whether a directory, without links, lies strictly under the servers root. -/
def isContained (path : PathBuf) : Bool :=
  match canonicalize host tree host.serversRoot, canonicalize host tree path with
  | .ok root, .ok target => root.isPrefixOf target && target != root
  | _, _ => false

end Disk

/-! ## The handler -/

/-- A row of `connector_install_receipts`. -/
structure InstallReceipt where
  connectorDir : Bytes
  /-- The server whose install recorded it, which the table does not say. -/
  server : String
  deriving DecidableEq

/-- What an uninstall reads and changes. -/
structure World where
  tree : Links.Tree Name
  rows : List ServerRow
  /-- The servers that the manager has in memory. -/
  servers : List String
  receipts : List InstallReceipt
  ledger : List ReceiptEntry

/-- What goes wrong during an uninstall. -/
structure UninstallFaults where
  /-- The arguments cannot be read. -/
  args : Bool
  /-- The grants or the row cannot be deleted. -/
  grants : Bool
  row : Bool
  removal : Option (Region Name)
  receipt : Bool
  ledger : Bool

/-- What the handler answers. -/
inductive UninstallResponse where
  | uninstalled (serverId : String)
  | invalid (message : String)
  deriving DecidableEq

/-- `remove_server`.  A server that is not in memory keeps its row. -/
def removeServer (world : World) (faults : UninstallFaults) (id : String) : World :=
  if world.servers.contains id then
    let disconnected := { world with servers := world.servers.filter (· ≠ id) }
    if faults.grants ∨ faults.row then disconnected
    else { disconnected with rows := world.rows.filter fun row => row.name ≠ id }
  else world

/-- Remove a directory, and the receipt for it once it is gone. -/
def removeDirectory (host : Host) (faults : UninstallFaults) (directory : Bytes) (world : World) :
    World :=
  match removePath host.platform world.tree (host.serversRoot.join (pathOf directory)) .dir
      faults.removal with
  | (tree, .removed) =>
      { world with
        tree := tree
        receipts :=
          if faults.receipt then world.receipts
          else world.receipts.filter fun receipt => receipt.connectorDir ≠ directory }
  | (tree, _) => { world with tree := tree }

/-- The loop over the candidates, with the path of the one that is handed to the system. -/
def removeFirst (host : Host) (faults : UninstallFaults) :
    List Bytes → World → World × Option PathBuf
  | [], world => (world, none)
  | directory :: rest, world =>
      let serverDir := host.serversRoot.join (pathOf directory)
      if !isDir host world.tree serverDir then removeFirst host faults rest world
      else if !isContained host world.tree serverDir then removeFirst host faults rest world
      else (removeDirectory host faults directory world, some serverDir)

/-- `footprint::remove` -/
def forget (faults : UninstallFaults) (id : String) (world : World) : World :=
  if faults.ledger then world
  else { world with ledger := world.ledger.filter fun entry => entry.id ≠ id }

/-- A run of the handler, with the path that it hands to the system to remove. -/
structure UninstallRun where
  world : World
  removal : Option PathBuf
  response : UninstallResponse

/-- `uninstall_handler`, for a request that is authorized and within the rate limit. -/
def uninstall (host : Host) (catalog : Option (List RegistryEntry)) (faults : UninstallFaults)
    (serverId : String) (world : World) : UninstallRun :=
  if leavesRoot serverId then
    { world := world, removal := none, response := .invalid "Invalid server id" }
  else
    let sought := candidates host catalog world.rows faults.args serverId
    let removed := removeFirst host faults sought (removeServer world faults serverId)
    { world := forget faults ("mcp:" ++ serverId) removed.1
      removal := removed.2
      response := .uninstalled serverId }

/-! ## Whose directory it is -/

/-- The file that the server of a row is run from. -/
def ServerRow.entryPoint (row : ServerRow) : PathBuf :=
  pathOf (utf8 (Mcp.resolveSealableEntryPoint row.command (row.args.getD [])))

/-- Whether an entry of the ledger is the receipt of another server. -/
def isOfAnother (serverId : String) (entry : ReceiptEntry) : Bool :=
  "mcp:".toList.isPrefixOf entry.id.toList && entry.id != "mcp:" ++ serverId

/-- The entry points of the other servers, and what their install receipts describe. -/
def othersPaths (host : Host) (world : World) (serverId : String) : List PathBuf :=
  ((world.rows.filter fun row => row.name ≠ serverId).map fun row =>
      host.kernelDir.join row.entryPoint)
    ++ ((world.receipts.filter fun receipt => receipt.server ≠ serverId).map fun receipt =>
      host.serversRoot.join (pathOf receipt.connectorDir))
    ++ (world.ledger.filter (isOfAnother serverId)).filterMap ReceiptEntry.path

/-- A path leads somewhere, and nowhere once a place is gone with what is below it: it comes
there, or passes through. -/
def Passes (host : Host) (tree : Links.Tree Name) (path : PathBuf) (place : Place Name) : Prop :=
  (∃ final, canonicalize host tree path = .ok final) ∧
    canonicalize host (tree.without (Spot.mk place true).region) path = .error .missing

/-- A place has something of another server: one of its paths passes it. -/
def HeldByOther (host : Host) (world : World) (serverId : String) (place : Place Name) : Prop :=
  ∃ path ∈ othersPaths host world serverId, Passes host world.tree path place

/-- Nothing is deleted but one directory strictly under the servers root, or a link, and
nothing of another server is in what is handed to the system. -/
structure RemovesOnlyItsOwn (host : Host) (world : World) (serverId : String)
    (run : UninstallRun) : Prop where
  one : (∀ place, run.world.tree.find place = world.tree.find place) ∨
    ∃ root top, canonicalize host world.tree host.serversRoot = .ok root ∧ root <+: top ∧
      top ≠ root ∧ ∀ place, run.world.tree.find place ≠ world.tree.find place →
        top <+: place ∨ ∃ rooted way, world.tree.find place = some (.link rooted way)
  spares : ∀ path ∈ run.removal, ∀ spot, reach host.platform world.tree path = .ok spot →
    ¬HeldByOther host world serverId spot.place

/-- The checks of the loop. -/
def isRemovable (host : Host) (tree : Links.Tree Name) (directory : Bytes) : Bool :=
  isDir host tree (host.serversRoot.join (pathOf directory))
    && isContained host tree (host.serversRoot.join (pathOf directory))

/-- Under the servers root a name is no directory, or nothing of another server is there. -/
def IsFree (host : Host) (world : World) (serverId : String) (directory : Bytes) : Prop :=
  isRemovable host world.tree directory = true →
    ∀ spot, reach host.platform world.tree (host.serversRoot.join (pathOf directory)) = .ok spot →
      ¬HeldByOther host world serverId spot.place

/-- The directory that the catalog has for an id. -/
def catalogDir (catalog : Option (List RegistryEntry)) (serverId : String) : Option Bytes :=
  (catalog.bind fun entries => entries.find? fun entry => entry.id = serverId).map
    effectiveInstallDir

/-- The directory that the registered arguments of an id lie under. -/
def registeredDir (host : Host) (rows : List ServerRow) (unread : Bool) (serverId : String) :
    Option Bytes :=
  installDirFromArgs
    (if unread then none else (rows.find? fun row => row.name = serverId).bind ServerRow.args)
    host.serversRoot

/-- Nothing of another server is in the directory that the catalog has for the id; nor in
the registered one, where the catalog has none under the servers root; nor in the one that
is named as the id, where there is neither. -/
structure SoughtAreFree (host : Host) (catalog : Option (List RegistryEntry)) (unread : Bool)
    (serverId : String) (world : World) : Prop where
  catalogued : ∀ directory ∈ catalogDir catalog serverId, IsFree host world serverId directory
  registered : (∀ directory ∈ catalogDir catalog serverId,
      isRemovable host world.tree directory = false) →
    ∀ directory ∈ registeredDir host world.rows unread serverId,
      IsFree host world serverId directory
  named : (∀ directory ∈ catalogDir catalog serverId,
      isRemovable host world.tree directory = false) →
    (∀ directory ∈ registeredDir host world.rows unread serverId,
      isRemovable host world.tree directory = false) →
    IsFree host world serverId (utf8 serverId)

section Loop

variable {host : Host} {faults : UninstallFaults} {world : World} {serverId : String}

/-- The loop removes the first directory that passes its checks. -/
theorem removeFirst_eq (sought : List Bytes) :
    removeFirst host faults sought world
      = match sought.find? (isRemovable host world.tree) with
        | none => (world, none)
        | some directory =>
            (removeDirectory host faults directory world,
              some (host.serversRoot.join (pathOf directory))) := by
  induction sought with
  | nil => rfl
  | cons directory rest ih =>
      rw [removeFirst, List.find?_cons]
      cases there : isDir host world.tree (host.serversRoot.join (pathOf directory)) with
      | false => simp [there, ih, isRemovable]
      | true =>
          cases contained : isContained host world.tree
            (host.serversRoot.join (pathOf directory)) with
          | false => simp [there, contained, ih, isRemovable]
          | true => simp [there, contained, isRemovable]

/-- What a removal leaves of the tree. -/
theorem removeDirectory_tree (directory : Bytes) :
    (removeDirectory host faults directory world).tree
      = (removePath host.platform world.tree (host.serversRoot.join (pathOf directory)) .dir
          faults.removal).1 := by
  unfold removeDirectory
  split
  · rename_i tree removed
    rw [removed]
  · rename_i tree outcome removed
    rw [removed]

/-- A place that a removal changes lies at or below where the path reaches. -/
theorem reach_of_changed {path : PathBuf} {place : Place Name}
    (changed : (removePath host.platform world.tree path .dir faults.removal).1.find place
      ≠ world.tree.find place) :
    ∃ spot, reach host.platform world.tree path = .ok spot ∧ spot.place <+: place ∧
      world.tree.find place ≠ none := by
  rw [Defender.removePath_tree path rfl] at changed
  cases isTarget : pathTarget host.platform world.tree path .dir with
  | none =>
      rw [isTarget] at changed
      exact absurd rfl changed
  | some spot =>
      refine ⟨spot, (Defender.pathTarget_eq_some_iff.mp isTarget).1, ?_⟩
      have isLost : ∃ region : Region Name,
          (world.tree.without region).find place ≠ world.tree.find place ∧
            (region.holds place = true → spot.region.holds place = true) := by
        rw [isTarget] at changed
        cases lost : Defender.loses .dir (some spot) faults.removal with
        | none =>
            rw [lost] at changed
            exact ⟨spot.region, changed, id⟩
        | some taken =>
            rw [lost] at changed
            refine ⟨spot.region.both taken, changed, fun holds => ?_⟩
            simp only [Region.both, Bool.and_eq_true] at holds
            exact holds.1
      rcases isLost with ⟨region, differs, within⟩
      rw [Tree.find_without] at differs
      split at differs
      · rename_i holds
        exact ⟨Spot.leads_of_holds (within holds), fun absent => differs absent.symm⟩
      · exact absurd rfl differs

/-- Where a path to a directory reaches is the directory, or a link to it. -/
theorem eq_or_link_of_reach {path : PathBuf} {spot : Spot Name} {target : Place Name}
    (reached : reach host.platform world.tree path = .ok spot)
    (canonical : canonicalize host world.tree path = .ok target) :
    spot.place = target ∨ ∃ rooted way, world.tree.find spot.place = some (.link rooted way) := by
  unfold reach at reached
  cases located : world.tree.locate host.platform.limit (path.way host.platform.os) with
  | error stop =>
      rw [located] at reached
      cases reached
  | ok place =>
      rw [located] at reached
      simp only [Except.bind] at reached
      split at reached
      · cases reached
        rcases Tree.eq_or_link_of_locate located canonical with same | link
        · exact Or.inl same.symm
        · exact Or.inr link
      · rw [canonicalize] at canonical
        simp only [canonical, Tree.goOn] at reached
        split at reached
        · cases reached
          exact Or.inl rfl
        · cases reached
        · cases reached

theorem exists_canonical_of_isRemovable {directory : Bytes}
    (removable : isRemovable host world.tree directory = true) :
    ∃ root target, canonicalize host world.tree host.serversRoot = .ok root ∧
      canonicalize host world.tree (host.serversRoot.join (pathOf directory)) = .ok target ∧
        root <+: target ∧ target ≠ root := by
  rw [isRemovable, Bool.and_eq_true, isContained] at removable
  have contained := removable.2
  split at contained
  · rename_i root target rootEq targetEq
    simp only [Bool.and_eq_true, List.isPrefixOf_iff_prefix, bne_iff_ne, ne_eq] at contained
    exact ⟨root, target, rootEq, targetEq, contained⟩
  · cases contained

/-- Nothing lies below a link. -/
theorem eq_of_below_link {place below : Place Name} {rooted : Bool}
    {way : List (Lexical.Segment Name)} (isLink : world.tree.find place = some (.link rooted way))
    (leads : place <+: below) (there : world.tree.find below ≠ none) : below = place := by
  by_contra apart
  have isDir := Tree.find_of_isPrefix there leads (Ne.symm apart)
  rw [isLink] at isDir
  cases isDir

/-- A path passes every place that it comes to or below. -/
theorem passes_of_prefix {path : PathBuf} {place final : Place Name}
    (canonical : canonicalize host world.tree path = .ok final) (leads : place <+: final)
    (named : final ≠ []) : Passes host world.tree path place := by
  refine ⟨⟨final, canonical⟩, ?_⟩
  have smaller := Tree.without_sub world.tree (Spot.mk place true).region
  rcases smaller.follow host.platform.limit [] (path.way host.platform.os) with missing | same
  · exact missing
  · have found := Tree.find_of_follow (Tree.find_root _) (same.trans canonical)
    have gone : (Spot.mk place true).region.holds final = true :=
      Spot.holds_iff.mpr ⟨named, leads, Or.inl rfl⟩
    rw [Tree.find_without, if_pos gone] at found
    rcases found with isDir | isFile
    · cases isDir
    · cases isFile

/-- The server's row goes before its files do. -/
theorem removeServer_tree : (removeServer world faults serverId).tree = world.tree := by
  unfold removeServer
  split
  · split <;> rfl
  · rfl

theorem forget_tree {id : String} : (forget faults id world).tree = world.tree := by
  unfold forget
  split <;> rfl

end Loop

section Ownership

variable {host : Host} {catalog : Option (List RegistryEntry)} {faults : UninstallFaults}
  {serverId : String} {world : World}

/-- The directory that an uninstall removes, if it removes one. -/
def found (host : Host) (catalog : Option (List RegistryEntry)) (faults : UninstallFaults)
    (serverId : String) (world : World) : Option Bytes :=
  (candidates host catalog world.rows faults.args serverId).find? (isRemovable host world.tree)

/-- A run does what removing the directory does that it finds. -/
theorem uninstall_eq (admitted : leavesRoot serverId = false) :
    (uninstall host catalog faults serverId world).removal
        = (found host catalog faults serverId world).map
            (fun directory => host.serversRoot.join (pathOf directory)) ∧
      (uninstall host catalog faults serverId world).world.tree
        = match found host catalog faults serverId world with
          | none => world.tree
          | some directory =>
              (removePath host.platform world.tree (host.serversRoot.join (pathOf directory)) .dir
                faults.removal).1 := by
  simp only [uninstall, admitted, Bool.false_eq_true, if_false, forget_tree, removeFirst_eq,
    removeServer_tree, found]
  cases (candidates host catalog world.rows faults.args serverId).find?
      (isRemovable host world.tree) with
  | none => exact ⟨rfl, removeServer_tree⟩
  | some directory =>
      refine ⟨rfl, ?_⟩
      simp only
      rw [removeDirectory_tree, removeServer_tree]

/-- What is deleted lies in one directory strictly under the servers root, or is a link. -/
theorem uninstall_one :
    (∀ place, (uninstall host catalog faults serverId world).world.tree.find place
        = world.tree.find place) ∨
      ∃ root top, canonicalize host world.tree host.serversRoot = .ok root ∧ root <+: top ∧
        top ≠ root ∧ ∀ place,
          (uninstall host catalog faults serverId world).world.tree.find place
              ≠ world.tree.find place →
            top <+: place ∨ ∃ rooted way, world.tree.find place = some (.link rooted way) := by
  cases admitted : leavesRoot serverId with
  | true =>
      left
      intro place
      simp [uninstall, admitted]
  | false =>
      rw [(uninstall_eq admitted).2]
      cases isFound : found host catalog faults serverId world with
      | none => exact Or.inl fun _ => rfl
      | some directory =>
          right
          rcases exists_canonical_of_isRemovable (List.find?_some isFound) with
            ⟨root, target, rootEq, targetEq, inside, apart⟩
          refine ⟨root, target, rootEq, inside, apart, fun place changed => ?_⟩
          rcases reach_of_changed changed with ⟨spot, reached, leads, there⟩
          rcases eq_or_link_of_reach reached targetEq with same | ⟨rooted, way, isLink⟩
          · exact Or.inl (same ▸ leads)
          · right
            rw [eq_of_below_link isLink leads there]
            exact ⟨rooted, way, isLink⟩

/-- A name that is sought twice is found where it is sought first. -/
theorem find?_foldl_distinct (fits : Bytes → Bool) (sought before : List Bytes) :
    (sought.foldl (fun found dir => if found.contains dir then found else found ++ [dir])
        before).find? fits
      = (before.find? fits).or (sought.find? fits) := by
  induction sought generalizing before with
  | nil => simp
  | cons dir rest ih =>
      rw [List.foldl_cons, ih, List.find?_cons]
      by_cases known : before.contains dir = true
      · rw [if_pos known]
        cases fit : fits dir with
        | false => rfl
        | true =>
            have isSome : (before.find? fits).isSome = true :=
              List.find?_isSome.mpr ⟨dir, List.contains_iff_mem.mp known, fit⟩
            rcases Option.isSome_iff_exists.mp isSome with ⟨first, isFirst⟩
            rw [isFirst]
            rfl
      · rw [if_neg known, List.find?_append, Option.or_assoc, List.find?_singleton]
        cases fits dir <;> rfl

theorem find?_reduceOption_cons (fits : Bytes → Bool) (dir : Option Bytes)
    (rest : List (Option Bytes)) :
    (dir :: rest).reduceOption.find? fits
      = (dir.filter fits).or (rest.reduceOption.find? fits) := by
  cases dir with
  | none => rfl
  | some dir =>
      rw [List.reduceOption_cons_of_some, List.find?_cons]
      cases fit : fits dir <;> simp [Option.filter, fit]

/-- The directory is sought in the catalog, then by the arguments, then by the id. -/
theorem found_eq : found host catalog faults serverId world
    = ((catalogDir catalog serverId).filter (isRemovable host world.tree)).or
        (((registeredDir host world.rows faults.args serverId).filter
          (isRemovable host world.tree)).or
            ((some (utf8 serverId)).filter (isRemovable host world.tree))) := by
  have sought : candidates host catalog world.rows faults.args serverId
      = [catalogDir catalog serverId, registeredDir host world.rows faults.args serverId,
          some (utf8 serverId)].reduceOption.foldl
            (fun found dir => if found.contains dir then found else found ++ [dir]) [] :=
    rfl
  rw [found, sought, find?_foldl_distinct]
  simp only [find?_reduceOption_cons, List.reduceOption_nil, List.find?_nil, Option.none_or,
    Option.or_none]

/-- What is found is free exactly if what is sought is. -/
theorem soughtAreFree_iff :
    SoughtAreFree host catalog faults.args serverId world ↔
      ∀ directory ∈ found host catalog faults serverId world,
        IsFree host world serverId directory := by
  have unfit : ∀ dir : Option Bytes, dir.filter (isRemovable host world.tree) = none ↔
      ∀ directory ∈ dir, isRemovable host world.tree directory = false := by
    intro dir
    simp [Option.filter_eq_none_iff]
  rw [found_eq]
  constructor
  · intro sought directory isFound
    rcases Option.or_eq_some_iff.mp isFound with ofCatalog | ⟨noCatalog, isFound⟩
    · exact sought.catalogued directory (Option.filter_eq_some_iff.mp ofCatalog).1
    · rcases Option.or_eq_some_iff.mp isFound with ofArgs | ⟨noArgs, ofId⟩
      · exact sought.registered ((unfit _).mp noCatalog) directory
          (Option.filter_eq_some_iff.mp ofArgs).1
      · cases (Option.filter_eq_some_iff.mp ofId).1
        exact sought.named ((unfit _).mp noCatalog) ((unfit _).mp noArgs)
  · intro free
    constructor
    · intro directory mem removable
      refine free directory ?_ removable
      rw [Option.mem_def, Option.filter_eq_some_iff.mpr ⟨mem, removable⟩]
      rfl
    · intro noCatalog directory mem removable
      refine free directory ?_ removable
      rw [Option.mem_def, (unfit _).mpr noCatalog, Option.filter_eq_some_iff.mpr ⟨mem, removable⟩]
      rfl
    · intro noCatalog noArgs removable
      refine free _ ?_ removable
      rw [Option.mem_def, (unfit _).mpr noCatalog, (unfit _).mpr noArgs,
        Option.filter_eq_some_iff.mpr ⟨rfl, removable⟩]
      rfl

/-- An uninstall deletes one directory at most, strictly under the servers root; and it is
not another server's exactly if the directory is not that the catalog, the registered
arguments or the id name first. -/
theorem uninstall_removesOnlyItsOwn_iff (host : Host) (catalog : Option (List RegistryEntry))
    (faults : UninstallFaults) (serverId : String) (world : World) :
    RemovesOnlyItsOwn host world serverId (uninstall host catalog faults serverId world) ↔
      leavesRoot serverId = true ∨
        SoughtAreFree host catalog faults.args serverId world := by
  rw [soughtAreFree_iff]
  constructor
  · intro owns
    cases admitted : leavesRoot serverId with
    | true => exact Or.inl rfl
    | false =>
        right
        intro directory isFound removable spot reached
        apply owns.spares _ _ spot reached
        rw [(uninstall_eq admitted).1, Option.mem_def.mp isFound]
        rfl
  · intro condition
    refine ⟨uninstall_one, ?_⟩
    intro path handed spot reached
    cases admitted : leavesRoot serverId with
    | true => simp [uninstall, admitted] at handed
    | false =>
        rw [(uninstall_eq admitted).1, Option.mem_def, Option.map_eq_some_iff] at handed
        rcases handed with ⟨directory, isFound, rfl⟩
        rcases condition with refused | free
        · rw [admitted] at refused
          cases refused
        · exact free directory isFound (List.find?_some isFound) spot reached

end Ownership

/-! ## A catalog that names another server's directory -/

/-- Two servers, each in a directory of its own. -/
def twoInstalls : World where
  tree :=
    { nodes :=
        [ ([utf8 "d"], .dir)
        , ([utf8 "d", utf8 "mcp-servers"], .dir)
        , ([utf8 "d", utf8 "mcp-servers", utf8 "a"], .dir)
        , ([utf8 "d", utf8 "mcp-servers", utf8 "a", utf8 "server.py"], .file)
        , ([utf8 "d", utf8 "mcp-servers", utf8 "b"], .dir)
        , ([utf8 "d", utf8 "mcp-servers", utf8 "b", utf8 "server.py"], .file) ]
      named := by decide +kernel
      distinct := by decide +kernel
      grounded := by decide +kernel }
  rows :=
    [ { name := "a", command := "python", args := some ["/d/mcp-servers/a/server.py"]
        marketplaceId := some "a", isActive := true }
    , { name := "b", command := "python", args := some ["/d/mcp-servers/b/server.py"]
        marketplaceId := some "b", isActive := true } ]
  servers := ["a", "b"]
  receipts :=
    [ { connectorDir := utf8 "a", server := "a" }, { connectorDir := utf8 "b", server := "b" } ]
  ledger := []

/-- A host with its data and its kernel under `/d`. -/
def unixHost : Host where
  platform := { os := .linux, limit := 40, unitFile := none }
  dataDir := Defender.absolute ["d"]
  kernelDir := Defender.absolute ["d"]

/-- A removal in which nothing fails. -/
def noUninstallFaults : UninstallFaults where
  args := false
  grants := false
  row := false
  removal := none
  receipt := false
  ledger := false

/-- The catalog says that the first server is in the directory of the second, and the second
loses its files. -/
theorem anothers_directory_removed :
    ¬RemovesOnlyItsOwn unixHost twoInstalls "a"
      (uninstall unixHost (some [{ id := "a", directory := "b" }]) noUninstallFaults "a"
        twoInstalls) := by
  intro owns
  have handed : (uninstall unixHost (some [{ id := "a", directory := "b" }]) noUninstallFaults "a"
      twoInstalls).removal = some (unixHost.serversRoot.join (pathOf (utf8 "b"))) := by
    decide +kernel
  have reached : reach unixHost.platform twoInstalls.tree
      (unixHost.serversRoot.join (pathOf (utf8 "b")))
        = .ok ⟨[utf8 "d", utf8 "mcp-servers", utf8 "b"], true⟩ := by
    decide +kernel
  apply owns.spares _ handed _ reached
  refine ⟨pathOf (utf8 "/d/mcp-servers/b/server.py"), by decide +kernel, ?_⟩
  have entryPoint : canonicalize unixHost twoInstalls.tree
      (pathOf (utf8 "/d/mcp-servers/b/server.py"))
        = .ok [utf8 "d", utf8 "mcp-servers", utf8 "b", utf8 "server.py"] := by
    decide +kernel
  exact passes_of_prefix entryPoint ⟨[utf8 "server.py"], rfl⟩ (List.cons_ne_nil _ _)

end ClotoCore.Marketplace
