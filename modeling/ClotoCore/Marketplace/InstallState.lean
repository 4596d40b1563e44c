import ClotoCore.Lookup.Overwrite
import ClotoCore.Marketplace.Uninstall
import ClotoCore.Transition.Run

/-!
# Whether a catalog entry is installed

The catalog and the install guard answer from three records: a row that claims the entry's
id, a row by that name, and the files with what they declare.  Installs and uninstalls
write the records one after the other and may stop between any two.  The two answers agree
as long as no tree that launches a process is left without the row of every entry whose
directory it is in.
-/

namespace ClotoCore.Marketplace

open ClotoCore.Encoding ClotoCore.Lookup ClotoCore.Transition
open ClotoCore.Defender (Name)

/-! ## The three records -/

/-- `Declaration`, by the connector's type. -/
structure Declaration where
  connectorType : String
  deriving DecidableEq

/-- What a connector is that says nothing, by `DEFAULT_CONNECTOR_TYPE`. -/
def defaultDeclaration : Declaration where
  connectorType := "mgp_server"

/-- `LAUNCHABLE_CONNECTOR_TYPES` -/
def launchableConnectorTypes : List String := ["mgp_server"]

/-- `launches_a_process` -/
def launchesAProcess (declaration : Declaration) : Bool :=
  launchableConnectorTypes.contains declaration.connectorType

/-- `PLACEHOLDER_COMMAND` -/
def placeholderCommand : String := "config-loaded"

/-- `is_placeholder` -/
def ServerRow.isPlaceholder (row : ServerRow) : Bool :=
  row.command == placeholderCommand

/-- The records of an installation. -/
structure Site where
  rows : List ServerRow
  /-- The servers that the manager has in memory. -/
  servers : List String
  /-- The directories in the servers root, by what is read in each. -/
  files : Name → Option Declaration
  /-- The directories that other texts lead to from the servers root. -/
  elsewhere : Bytes → Option Declaration
  receipts : List Bytes

/-- The one component of a text, where it has just one. -/
def singleComponent (directory : Bytes) : Option Name :=
  match (pathOf directory).components with
  | [.normal name] => some name
  | _ => none

/-- What `read_declaration` finds in a directory under the servers root, if it is one. -/
def Site.read (site : Site) (directory : Bytes) : Option Declaration :=
  match singleComponent directory with
  | some name => site.files name
  | none => site.elsewhere directory

/-- `row_claiming` -/
def rowClaiming (rows : List ServerRow) (catalogId : String) : Option ServerRow :=
  rows.find? fun row => row.marketplaceId = some catalogId

/-- `row_named` -/
def rowNamed (rows : List ServerRow) (catalogId : String) : Option ServerRow :=
  rows.find? fun row => row.name = catalogId && !row.isPlaceholder

/-- `InstallState` -/
structure InstallState where
  claimed : Option ServerRow
  named : Option ServerRow
  hasFiles : Bool
  registersNoServer : Bool

namespace InstallState

/-- `InstallState::resolve` -/
def resolve (site : Site) (entry : RegistryEntry) : InstallState where
  claimed := rowClaiming site.rows entry.id
  named := rowNamed site.rows entry.id
  hasFiles := (site.read (effectiveInstallDir entry)).isSome
  registersNoServer :=
    (site.read (effectiveInstallDir entry)).any fun declaration => !launchesAProcess declaration

/-- `shown_as_installed` -/
def shownAsInstalled (state : InstallState) : Bool :=
  state.claimed.any ServerRow.isActive || state.named.isSome || state.hasFiles

/-- `blocks_a_fresh_install` -/
def blocksAFreshInstall (state : InstallState) : Bool :=
  state.named.isSome || state.registersNoServer

/-- `keys_disagree` -/
def keysDisagree (state : InstallState) : Bool :=
  state.shownAsInstalled != state.blocksAFreshInstall

end InstallState

/-! ## Installing -/

/-- Where an install gets its files: an archive that the install engine places, a tree that
the kernel clones or unpacks itself, or a package that has no directory. -/
inductive Source where
  | engine
  | tree
  | package
  deriving DecidableEq

/-- What an install brings: the directories that it changes, with what is read in them then,
and the command line of its server. -/
structure InstallPlan where
  source : Source
  changes : List (Name × Option Declaration)
  command : String
  args : List String

/-- The writes of an install that fail and are only logged. -/
structure InstallFaults where
  receipt : Bool
  row : Bool
  fields : Bool

/-- The steps of an install that leave a record. -/
inductive InstallStage where
  | files
  | receipt
  | row
  | connect
  | fields
  deriving DecidableEq

/-- The steps that put files in place, by whether these launch a process.  The kernel records
a receipt itself only where they do not. -/
def placingStages : Source → Bool → List InstallStage
  | .package, _ => []
  | .engine, _ => [.files, .receipt]
  | .tree, true => [.files]
  | .tree, false => [.files, .receipt]

/-- The steps of `finish_registration`. -/
def registeringStages : List InstallStage := [.row, .connect, .fields]

/-- The steps of an install.  Files that launch nothing are the whole of it. -/
def installStages (source : Source) (launches : Bool) : List InstallStage :=
  placingStages source launches
    ++ if source = .package ∨ launches = true then registeringStages else []

/-- `save_mcp_server`, which keeps the id that a row claims. -/
def saveRow (id command : String) (args : List String) (rows : List ServerRow) : List ServerRow :=
  if rows.any fun row => row.name = id then
    rows.map fun row =>
      if row.name = id then { row with command := command, args := some args, isActive := true }
      else row
  else
    rows ++
      [{ name := id
         command := command
         args := some args
         marketplaceId := none
         isActive := true }]

/-- `set_marketplace_fields` -/
def setMarketplaceFields (id : String) (rows : List ServerRow) : List ServerRow :=
  rows.map fun row => if row.name = id then { row with marketplaceId := some id } else row

/-- One step of an install.  A server whose row cannot be saved is not connected. -/
def InstallStage.apply (entry : RegistryEntry) (plan : InstallPlan) (faults : InstallFaults)
    (site : Site) : InstallStage → Site
  | .files => { site with files := overwrite site.files plan.changes }
  | .receipt =>
      if faults.receipt ∨ effectiveInstallDir entry ∈ site.receipts then site
      else { site with receipts := site.receipts ++ [effectiveInstallDir entry] }
  | .row =>
      if faults.row then site
      else { site with rows := saveRow entry.id plan.command plan.args site.rows }
  | .connect =>
      if faults.row ∨ entry.id ∈ site.servers then site
      else { site with servers := site.servers ++ [entry.id] }
  | .fields =>
      if faults.fields then site
      else { site with rows := setMarketplaceFields entry.id site.rows }

/-- What is in the directory of an entry once the files of a plan are placed. -/
def Site.placed (site : Site) (plan : InstallPlan) : Site :=
  { site with files := overwrite site.files plan.changes }

/-- Whether the connector launches a process, by the files of a plan. -/
def launchesPlaced (site : Site) (entry : RegistryEntry) (plan : InstallPlan) : Bool :=
  launchesAProcess
    (((site.placed plan).read (effectiveInstallDir entry)).getD defaultDeclaration)

/-- `reject_existing` -/
def rejectExisting (present isUpdate : Bool) : Bool :=
  present && !isUpdate

/-- The steps that an install comes to before it stops. -/
def reachedStages (site : Site) (entry : RegistryEntry) (isUpdate : Bool) (plan : InstallPlan)
    (stop : Nat) : List InstallStage :=
  if rejectExisting (InstallState.resolve site entry).blocksAFreshInstall isUpdate then []
  else (installStages plan.source (launchesPlaced site entry plan)).take stop

/-- `install_handler` with the install that it starts, which stops behind some steps. -/
def install (entry : RegistryEntry) (isUpdate : Bool) (plan : InstallPlan)
    (faults : InstallFaults) (stop : Nat) (site : Site) : Site :=
  (reachedStages site entry isUpdate plan stop).foldl (InstallStage.apply entry plan faults) site

/-! ## Uninstalling -/

/-- What goes wrong during an uninstall. -/
structure SiteFaults where
  /-- The arguments of the row cannot be read. -/
  args : Bool
  /-- The grants or the row cannot be deleted. -/
  row : Bool
  /-- The directory cannot be removed, and this is read in it then. -/
  leftover : Option Declaration
  receipt : Bool

/-- The steps of an uninstall that change a record. -/
inductive UninstallStage where
  | disconnect
  | row
  | files
  | receipt
  deriving DecidableEq

/-- The steps of an uninstall. -/
def uninstallStages : List UninstallStage := [.disconnect, .row, .files, .receipt]

/-- Whether a name leads to a directory strictly in the servers root. -/
def Site.holds (site : Site) (directory : Bytes) : Bool :=
  match singleComponent directory with
  | some name => (site.files name).isSome
  | none => false

/-- The directory that an uninstall finds. -/
def Site.sought (site : Site) (host : Host) (catalog : Option (List RegistryEntry))
    (faults : SiteFaults) (id : String) : Option Bytes :=
  (candidates host catalog site.rows faults.args id).find? site.holds

/-- Whether an uninstall deletes the row: not for a server that is not in memory. -/
def deletesRow (start : Site) (faults : SiteFaults) (id : String) : Bool :=
  start.servers.contains id && !faults.row

/-- One step of an uninstall, by what was read at its start. -/
def UninstallStage.apply (start : Site) (found : Option Bytes) (faults : SiteFaults) (id : String)
    (site : Site) : UninstallStage → Site
  | .disconnect => { site with servers := site.servers.filter (· ≠ id) }
  | .row =>
      if deletesRow start faults id then
        { site with rows := site.rows.filter fun row => row.name ≠ id }
      else site
  | .files =>
      match found.bind singleComponent with
      | some name => { site with files := Function.update site.files name faults.leftover }
      | none => site
  | .receipt =>
      match found with
      | some directory =>
          if faults.leftover.isSome ∨ faults.receipt then site
          else { site with receipts := site.receipts.filter (· ≠ directory) }
      | none => site

/-- `uninstall_handler`, which stops behind some steps. -/
def uninstallSite (host : Host) (catalog : Option (List RegistryEntry)) (faults : SiteFaults)
    (id : String) (stop : Nat) (site : Site) : Site :=
  if leavesRoot id then site
  else
    (uninstallStages.take stop).foldl
      (UninstallStage.apply site (site.sought host catalog faults id) faults id) site

/-! ## Runs -/

/-- What is asked of an installation, of entries of its catalog. -/
inductive Operation where
  | install (entry : RegistryEntry) (isUpdate : Bool) (plan : InstallPlan) (faults : InstallFaults)
      (stop : Nat)
  /-- The catalog may not be in the cache. -/
  | uninstall (entry : RegistryEntry) (cached : Bool) (faults : SiteFaults) (stop : Nat)

section Runs

variable (host : Host) (catalog : List RegistryEntry)

/-- The site behind a request. -/
def operate (site : Site) : Operation → Site
  | .install entry isUpdate plan faults stop => install entry isUpdate plan faults stop site
  | .uninstall entry cached faults stop =>
      uninstallSite host (if cached then some catalog else none) faults entry.id stop site

/-- Every operation can be asked in every state. -/
def operation : Action Site Operation := fun site asked => some (operate host catalog site asked)

/-- An uninstall that comes to its end answers that the server is uninstalled. -/
def Answers (entry : RegistryEntry) (stop : Nat) : Prop :=
  leavesRoot entry.id = false ∧ uninstallStages.length ≤ stop

end Runs

/-- Nothing is installed.  There may be rows that only grants need. -/
structure Site.Empty (site : Site) : Prop where
  rows : ∀ row ∈ site.rows, row.isPlaceholder = true ∧ row.marketplaceId = none
  files : ∀ name, site.files name = none
  receipts : site.receipts = []

/-- A server has its row. -/
def HasRow (rows : List ServerRow) (id : String) : Prop :=
  ∃ row ∈ rows, row.name = id ∧ row.isPlaceholder = false

/-- Rows claim their own names. -/
def Claims (rows : List ServerRow) : Prop :=
  ∀ row ∈ rows, ∀ id, row.marketplaceId = some id → row.name = id ∧ row.isPlaceholder = false

/-- The catalog and the install guard agree about an entry. -/
def Agrees (site : Site) (entry : RegistryEntry) : Prop :=
  (InstallState.resolve site entry).keysDisagree = false

/-- Nothing is left of an entry. -/
structure Clean (site : Site) (entry : RegistryEntry) : Prop where
  hidden : (InstallState.resolve site entry).shownAsInstalled = false
  admitted : (InstallState.resolve site entry).blocksAFreshInstall = false
  receipt : effectiveInstallDir entry ∉ site.receipts

/-! ## When the records agree -/

/-- What is in a directory launches a process. -/
def LaunchesIn (site : Site) (directory : Bytes) : Prop :=
  ∃ declaration, site.read directory = some declaration ∧ launchesAProcess declaration = true

/-- Rows claim their own names, and trees that launch a process have the rows of all
entries whose directory they are in. -/
structure Kept (catalog : List RegistryEntry) (site : Site) : Prop where
  claims : Claims site.rows
  recorded : ∀ entry ∈ catalog, LaunchesIn site (effectiveInstallDir entry) →
    HasRow site.rows entry.id

section Readers

variable {site : Site} {entry : RegistryEntry} {catalog : List RegistryEntry}

theorem rowNamed_isSome_iff {id : String} :
    (rowNamed site.rows id).isSome = true ↔ HasRow site.rows id := by
  rw [rowNamed, List.find?_isSome]
  simp [HasRow]

/-- Rows that claim an id are the rows of its name. -/
theorem hasRow_of_claimed (claims : Claims site.rows) {id : String}
    (claimed : (rowClaiming site.rows id).any ServerRow.isActive = true) : HasRow site.rows id := by
  rcases (Option.any_eq_true _ _).mp claimed with ⟨row, found, -⟩
  have mem : row ∈ site.rows := List.mem_of_find?_eq_some found
  have claimsId : row.marketplaceId = some id := by
    simpa using List.find?_some found
  exact ⟨row, mem, claims row mem id claimsId⟩

/-- Where the records are kept, the catalog and the guard agree. -/
theorem Kept.agrees (kept : Kept catalog site) (mem : entry ∈ catalog) : Agrees site entry := by
  rw [Agrees, InstallState.keysDisagree, bne_eq_false_iff_eq]
  by_cases row : HasRow site.rows entry.id
  · have named := rowNamed_isSome_iff.mpr row
    simp [InstallState.shownAsInstalled, InstallState.blocksAFreshInstall, InstallState.resolve,
      named]
  · have unnamed : (rowNamed site.rows entry.id).isSome = false := by
      rw [← Bool.not_eq_true, rowNamed_isSome_iff]
      exact row
    have unclaimed : (rowClaiming site.rows entry.id).any ServerRow.isActive = false := by
      rw [← Bool.not_eq_true]
      exact fun claimed => row (hasRow_of_claimed kept.claims claimed)
    simp only [InstallState.shownAsInstalled, InstallState.blocksAFreshInstall,
      InstallState.resolve, unnamed, unclaimed, Bool.false_or]
    cases there : site.read (effectiveInstallDir entry) with
    | none => rfl
    | some declaration =>
        have idle : launchesAProcess declaration = false := by
          rw [← Bool.not_eq_true]
          exact fun launches => row (kept.recorded entry mem ⟨declaration, there, launches⟩)
        simp [idle]

end Readers

section Rows

variable {site : Site} {rows : List ServerRow} {id command : String} {args : List String}

end Rows

/-! ## Installs -/

/-- When an install keeps the records: the trees that launch a process have their rows, or
get them; what is registered runs a command; and no row is claimed that could not be saved. -/
structure InstallMeets (catalog : List RegistryEntry) (site : Site) (entry : RegistryEntry)
    (isUpdate : Bool) (plan : InstallPlan) (faults : InstallFaults) (stop : Nat) : Prop where
  recorded : .files ∈ reachedStages site entry isUpdate plan stop → ∀ other ∈ catalog,
    LaunchesIn (site.placed plan) (effectiveInstallDir other) →
      HasRow site.rows other.id ∨
        (other.id = entry.id ∧ .row ∈ reachedStages site entry isUpdate plan stop ∧
          faults.row = false)
  runs : .row ∈ reachedStages site entry isUpdate plan stop → faults.row = false →
    plan.command ≠ placeholderCommand
  unclaimed : .fields ∈ reachedStages site entry isUpdate plan stop → faults.fields = false →
    faults.row = true → ∀ row ∈ site.rows, row.name = entry.id → row.isPlaceholder = false

section Installs

variable {catalog : List RegistryEntry} {site : Site} {entry : RegistryEntry} {isUpdate : Bool}
  {plan : InstallPlan} {faults : InstallFaults} {stop : Nat}

end Installs

/-! ## Uninstalls -/

/-- The steps that an uninstall comes to before it stops. -/
def uninstallReached (id : String) (stop : Nat) : List UninstallStage :=
  if leavesRoot id then [] else uninstallStages.take stop

/-- When an uninstall keeps the records, and leaves nothing where it comes to its end. -/
structure UninstallMeets (host : Host) (catalog : List RegistryEntry) (site : Site)
    (entry : RegistryEntry) (cached : Bool) (faults : SiteFaults) (stop : Nat) : Prop where
  /-- A row goes only with the tree that it is for. -/
  own : .row ∈ uninstallReached entry.id stop → deletesRow site faults entry.id = true →
    ∀ other ∈ catalog, other.id = entry.id → LaunchesIn site (effectiveInstallDir other) →
      .files ∈ uninstallReached entry.id stop ∧ faults.leftover = none ∧
        (singleComponent (effectiveInstallDir other)).isSome = true ∧
        (site.sought host (if cached then some catalog else none) faults entry.id).bind
            singleComponent
          = singleComponent (effectiveInstallDir other)
  /-- What a removal leaves is no tree without its row. -/
  left : .files ∈ uninstallReached entry.id stop → ∀ declaration,
    faults.leftover = some declaration → launchesAProcess declaration = true →
      ∀ other ∈ catalog, (singleComponent (effectiveInstallDir other)).isSome = true →
        (site.sought host (if cached then some catalog else none) faults entry.id).bind
            singleComponent
          = singleComponent (effectiveInstallDir other) →
        HasRow site.rows other.id ∧
          (other.id = entry.id → deletesRow site faults entry.id = false)
  /-- What is left of the entry is what the uninstall finds, and can be removed. -/
  ends : Answers entry stop →
    (HasRow site.rows entry.id → deletesRow site faults entry.id = true) ∧
      ((site.read (effectiveInstallDir entry)).isSome = true →
        faults.leftover = none ∧ (singleComponent (effectiveInstallDir entry)).isSome = true ∧
          (site.sought host (if cached then some catalog else none) faults entry.id).bind
              singleComponent
            = singleComponent (effectiveInstallDir entry)) ∧
      (effectiveInstallDir entry ∈ site.receipts →
        faults.leftover = none ∧ faults.receipt = false ∧
          site.sought host (if cached then some catalog else none) faults entry.id
            = some (effectiveInstallDir entry))

section Uninstalls

variable {host : Host} {catalog : List RegistryEntry} {site : Site} {entry : RegistryEntry}
  {cached : Bool} {faults : SiteFaults} {stop : Nat}

theorem Claims.filter {rows : List ServerRow} (claims : Claims rows) (kept : ServerRow → Bool) :
    Claims (rows.filter kept) :=
  fun row mem => claims row (List.mem_of_mem_filter mem)

end Uninstalls

/-! ## Runs that keep the records -/

section Runs

variable {host : Host} {catalog : List RegistryEntry}

/-- What every step of a run meets. -/
def Meets (host : Host) (catalog : List RegistryEntry) (site : Site) : Operation → Prop
  | .install entry isUpdate plan faults stop =>
      InstallMeets catalog site entry isUpdate plan faults stop
  | .uninstall entry cached faults stop =>
      UninstallMeets host catalog site entry cached faults stop

/-- Where nothing is installed the records are kept, as long as no entry has a directory
that something else is in. -/
theorem Site.Empty.kept {site : Site} (empty : site.Empty)
    (bare : ∀ entry ∈ catalog, ¬LaunchesIn site (effectiveInstallDir entry)) :
    Kept catalog site := by
  refine ⟨?_, ?_⟩
  · intro row mem id claims
    rw [(empty.rows row mem).2] at claims
    cases claims
  · exact fun entry mem launches => absurd launches (bare entry mem)

end Runs

/-! ## An install that stops behind its files -/

/-- A catalog entry that names no directory. -/
def serverEntry : RegistryEntry where
  id := "a"
  directory := ""

end ClotoCore.Marketplace
