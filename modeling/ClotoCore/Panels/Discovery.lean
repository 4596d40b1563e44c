import ClotoCore.Encoding.Text
import ClotoCore.Panels.Declarations

/-!
# Finding a panel

A module is a directory that the operator placed or a panel that an installed
connector declares.  Only a panel may declare writes, and one whose declarations
are not accepted is listed with its problem and resolves to nothing.
-/

namespace ClotoCore.Panels

open ClotoCore.Encoding

/-- What the gate reads of a `ModuleManifest`. -/
structure ModuleManifest where
  id : Option String
  name : String
  entry : String
  writes : List String

/-- A directory under the modules root, with its manifest as it is read. -/
structure PlacedModule where
  dirName : String
  root : String
  manifest : Except String ModuleManifest

/-- What the gate reads of a `PanelDeclaration`. -/
structure PanelDeclaration where
  id : String
  name : String
  entry : String
  writes : List String

/-- A directory under the servers root with the panels its manifest declares. -/
structure ConnectorPanels where
  connectorId : String
  root : String
  panels : List PanelDeclaration

/-- `FoundModule` -/
structure FoundModule where
  id : String
  connector : Option String
  root : String
  manifest : ModuleManifest

/-- `Discovered`: a module, or the problem with it. -/
structure Discovered where
  id : String
  module : Except String FoundModule

/-- `is_valid_module_id` -/
def isValidModuleId (id : String) : Bool :=
  id != "" && decide (id.utf8ByteSize ≤ 64)
    && id.toList.all fun c => (c.isAlphanum && decide (c.toNat < 128)) || c == '-' || c == '_'

/-- `INVALID_ID_MESSAGE` -/
def invalidIdMessage : String :=
  "not a valid module id (ASCII letters, digits, '-' and '_', at most 64)"

/-- `safe_relative_path` gives a path. -/
def isSafeRelativePath (path : String) : Bool :=
  let components := (segments path).filter fun segment => segment != [] && segment != ['.']
  path.toList.head? != some '/' && !components.isEmpty
    && components.all fun segment => segment != ['.', '.'] && !segment.contains '\x00'

section Discovery

-- the debug form of a text
variable (quote : String → String)

/-- The checks of `read_manifest`. -/
def readManifest (manifest : ModuleManifest) (id : String) : Except String ModuleManifest :=
  match manifest.id.filter fun declared => declared != id with
  | some declared =>
      .error s!"manifest id {quote declared} does not match directory {quote id}"
  | none =>
      if trim manifest.name = "" then .error "manifest has an empty name"
      else if isSafeRelativePath manifest.entry = false then
        .error s!"entry {quote manifest.entry} escapes the module"
      else .ok manifest

/-- The refusal of a placed module that declares writes. -/
def placedWrites : String :=
  "declares writes, which only a panel shipped by an installed connector may do"

/-- The module of a placed directory. -/
def placedModule (placed : PlacedModule) : Discovered where
  id := placed.dirName
  module :=
    if isValidModuleId placed.dirName = false then .error invalidIdMessage
    else do
      let manifest ← readManifest quote (← placed.manifest) placed.dirName
      if manifest.writes = [] then .ok ⟨placed.dirName, none, placed.root, manifest⟩
      else .error placedWrites

/-- `discover_placed_modules` -/
def discoverPlacedModules (placed : List PlacedModule) : List Discovered :=
  (placed.filter fun item => item.dirName.toList.head? != some '.').map (placedModule quote)

/-- The module of a panel that a connector declares. -/
def panelModule (connector : ConnectorPanels) (panel : PanelDeclaration) : Discovered where
  id := s!"{connector.connectorId}-{panel.id}"
  module :=
    let id := s!"{connector.connectorId}-{panel.id}"
    if isValidModuleId panel.id = false ∨ isValidModuleId id = false then
      .error <| s!"connector {quote connector.connectorId} declares panel id {quote panel.id}, " ++
        s!"which does not produce a valid module id ({invalidIdMessage})"
    else if trim panel.name = "" then
      .error s!"connector {quote connector.connectorId} declares a panel with an empty name"
    else if isSafeRelativePath panel.entry = false then
      .error s!"entry {quote panel.entry} escapes the connector"
    else
      match validateWrites quote panel.writes with
      | .error reason =>
          .error <|
            s!"connector {quote connector.connectorId} declares an invalid panel write {reason}"
      | .ok _ =>
          .ok ⟨id, some connector.connectorId, connector.root,
            ⟨none, panel.name, panel.entry, panel.writes⟩⟩

/-- `discover_connector_panels` -/
def discoverConnectorPanels (connectors : List ConnectorPanels) : List Discovered :=
  (connectors.filter fun connector => connector.connectorId.toList.head? != some '.').flatMap
    fun connector => connector.panels.map (panelModule quote connector)

/-- `find_module_in`.  An id that more than one source claims resolves to nothing, as
one with a problem does. -/
def findModuleIn (placed : List PlacedModule) (connectors : List ConnectorPanels) (id : String) :
    Option FoundModule :=
  match (discoverPlacedModules quote placed ++ discoverConnectorPanels quote connectors).filter
      fun item => item.id == id with
  | [item] => item.module.toOption
  | _ => none

theorem validateWrites_placedModule {placed : PlacedModule} {found : FoundModule}
    (usable : (placedModule quote placed).module = .ok found) :
    validateWrites quote found.manifest.writes = .ok () := by
  unfold placedModule at usable
  dsimp only at usable
  split at usable
  · cases usable
  · cases read : placed.manifest with
    | error problem => simp [read, bind, Except.bind] at usable
    | ok manifest =>
        cases checked : readManifest quote manifest placed.dirName with
        | error problem => simp [read, checked, bind, Except.bind] at usable
        | ok manifest =>
            simp only [read, checked, bind, Except.bind] at usable
            split at usable
            · next empty =>
              cases usable
              rw [empty]
              rfl
            · cases usable

theorem validateWrites_panelModule {connector : ConnectorPanels} {panel : PanelDeclaration}
    {found : FoundModule} (usable : (panelModule quote connector panel).module = .ok found) :
    validateWrites quote found.manifest.writes = .ok () := by
  unfold panelModule at usable
  dsimp only at usable
  split_ifs at usable
  split at usable
  · cases usable
  · next valid =>
    cases usable
    exact valid

/-- The declarations of a module that resolves are accepted. -/
theorem validateWrites_of_findModuleIn {placed : List PlacedModule}
    {connectors : List ConnectorPanels} {id : String} {found : FoundModule}
    (here : findModuleIn quote placed connectors id = some found) :
    validateWrites quote found.manifest.writes = .ok () := by
  unfold findModuleIn at here
  split at here
  · next item alone =>
    have mem : item ∈ discoverPlacedModules quote placed ++
        discoverConnectorPanels quote connectors := by
      apply List.mem_of_mem_filter (p := fun item => item.id == id)
      rw [alone]
      exact List.mem_singleton_self item
    have usable : item.module = .ok found := by
      cases module : item.module with
      | error problem => simp [module, Except.toOption] at here
      | ok other =>
          rw [module] at here
          rw [Option.some.inj here]
    rcases List.mem_append.mp mem with fromPlaced | fromConnector
    · rcases List.mem_map.mp fromPlaced with ⟨source, -, rfl⟩
      exact validateWrites_placedModule quote usable
    · rcases List.mem_flatMap.mp fromConnector with ⟨connector, -, panels⟩
      rcases List.mem_map.mp panels with ⟨panel, -, rfl⟩
      exact validateWrites_panelModule quote usable
  · cases here

end Discovery

end ClotoCore.Panels
