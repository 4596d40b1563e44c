import ClotoCore.Mcp.Isolation
import Mathlib.Logic.Function.Basic

/-!
# The servers and the routes to their tools

The manager keeps the handles by id and three indexes over their tools: the
routing index, the searchable index and the capability mappings.  Each operation
updates the ones that it updates in the source.
-/

namespace ClotoCore.Mcp

open ClotoCore.Approval

/-- `ServerStatus` -/
inductive ServerStatus where
  | registered
  | connecting
  | connected
  | draining
  | disconnected
  | error (message : String)
  | restarting
  deriving DecidableEq

/-- `McpServerHandle`.  A client is the connection to one started server, and
its number tells it from every other. -/
structure McpServerHandle where
  config : McpServerConfig
  client : Option Nat
  tools : List McpTool
  mgpNegotiated : Option NegotiatedMgp
  status : ServerStatus
  isolationProfile : Option IsolationProfile

/-- `ToolIndexEntry`, as far as routing reads it. -/
structure ToolIndexEntry where
  serverId : String
  name : String
  security : Option ToolSecurityMetadata

/-- `CapabilityType` -/
inductive CapabilityType where
  | memory
  | reasoning
  | vision
  | stt
  | speech
  deriving DecidableEq

/-- `CapabilityMapping` -/
structure CapabilityMapping where
  serverId : String
  toolName : String
  deriving DecidableEq

/-- The parts of `McpClientManager` that connections change. -/
structure Manager where
  servers : String → Option McpServerHandle
  toolIndex : String → Option String
  richToolIndex : List ToolIndexEntry
  dispatcher : CapabilityType → List CapabilityMapping

/-- The manager of a kernel that has just started. -/
def Manager.empty : Manager where
  servers := fun _ => none
  toolIndex := fun _ => none
  richToolIndex := []
  dispatcher := fun _ => []

/-! ## Tools -/

/-- A name in the namespace that is reserved for the kernel. -/
def isReservedName (toolName : String) : Bool :=
  "mgp.".toList.isPrefixOf toolName.toList

/-- `ENGINE_TOOL_NAMES` -/
def engineToolNames : List String := ["think", "think_with_tools"]

/-- `tools_expose_reasoning` -/
def toolsExposeReasoning (tools : List McpTool) : Bool :=
  tools.any fun tool => engineToolNames.contains tool.name

/-- The names of the tools that a handle lists. -/
def McpServerHandle.toolNames (handle : McpServerHandle) : List String :=
  handle.tools.map McpTool.name

/-- `CapabilityType::from_str` -/
def CapabilityType.fromStr : String → Option CapabilityType
  | "Memory" => some .memory
  | "Reasoning" => some .reasoning
  | "Vision" => some .vision
  | "Stt" => some .stt
  | "Speech" => some .speech
  | _ => none

/-- The tools that `classify_tool` counts as memory. -/
def memoryToolNames : List String :=
  ["store", "recall", "list_memories", "delete_memory", "list_episodes", "delete_episode",
    "archive_episode", "delete_agent_data", "update_profile", "update_memory", "import_memories",
    "lock_memory", "unlock_memory", "set_recall_precision", "get_recall_precision"]

/-- `classify_tool` -/
def classifyTool (toolName : String) : Option CapabilityType :=
  if memoryToolNames.contains toolName then some .memory
  else if engineToolNames.contains toolName then some .reasoning
  else if ["analyze_image", "capture_screen", "capture_screenshot"].contains toolName then
    some .vision
  else if toolName = "transcribe" then some .stt
  else if toolName = "speak" then some .speech
  else none

/-! ## The capability mappings -/

/-- The dispatcher of all capabilities. -/
abbrev Dispatcher := CapabilityType → List CapabilityMapping

/-- Push a mapping that is not there yet. -/
def Dispatcher.add (dispatcher : Dispatcher) (capability : CapabilityType)
    (mapping : CapabilityMapping) : Dispatcher :=
  if (dispatcher capability).contains mapping then dispatcher
  else Function.update dispatcher capability (dispatcher capability ++ [mapping])

/-- `build_from_tools` -/
def Dispatcher.buildFromTools (dispatcher : Dispatcher) (serverId : String)
    (tools : List McpTool) : Dispatcher :=
  tools.foldl
    (fun mappings tool =>
      match classifyTool tool.name with
      | none => mappings
      | some capability => mappings.add capability ⟨serverId, tool.name⟩)
    dispatcher

/-- `build_from_capabilities`: a key that names no capability is skipped. -/
def Dispatcher.buildFromCapabilities (dispatcher : Dispatcher) (serverId : String)
    (toolsForCapability : List (String × List String)) : Dispatcher :=
  toolsForCapability.foldl
    (fun mappings entry =>
      match CapabilityType.fromStr entry.1 with
      | none => mappings
      | some capability =>
          entry.2.foldl (fun mappings name => mappings.add capability ⟨serverId, name⟩) mappings)
    dispatcher

/-- `CapabilityDispatcher::remove_server` -/
def Dispatcher.removeServer (dispatcher : Dispatcher) (serverId : String) : Dispatcher :=
  fun capability => (dispatcher capability).filter fun mapping => mapping.serverId != serverId

/-! ## Operations -/

namespace Manager

/-- Change the handle of a server that is there. -/
def modify (manager : Manager) (id : String) (change : McpServerHandle → McpServerHandle) :
    Manager :=
  match manager.servers id with
  | none => manager
  | some handle =>
      { manager with
        servers := Function.update manager.servers id (some (change handle)) }

/-- The status of a server that is there. -/
def statusOf (manager : Manager) (id : String) : Option ServerStatus :=
  (manager.servers id).map McpServerHandle.status

/-- Give a server that is there a new status. -/
def setStatus (manager : Manager) (id : String) (status : ServerStatus) : Manager :=
  manager.modify id fun handle => { handle with status }

/-- `set_server_error` -/
def setServerError (manager : Manager) (id message : String) : Manager :=
  manager.modify id fun handle => { handle with status := .error message, client := none }

/-- Take the client out of a handle before it is replaced. -/
def takeClient (manager : Manager) (id : String) : Manager :=
  manager.modify id fun handle => { handle with client := none }

/-- Route every tool of a server to it, whoever had the name before; reserved
names are skipped. -/
def indexTools (toolIndex : String → Option String) (id : String) (tools : List McpTool) :
    String → Option String :=
  tools.foldl
    (fun index tool =>
      if isReservedName tool.name then index else Function.update index tool.name (some id))
    toolIndex

/-- `ToolIndex::remove_server_tools` -/
def removeServerTools (entries : List ToolIndexEntry) (id : String) : List ToolIndexEntry :=
  entries.filter fun entry => entry.serverId != id

/-- `ToolIndex::add_server_tools` -/
def addServerTools (entries : List ToolIndexEntry) (id : String) (tools : List McpTool)
    (securityFn : String → Option ToolSecurityMetadata) : List ToolIndexEntry :=
  removeServerTools entries id
    ++ (tools.filter fun tool => !isReservedName tool.name).map fun tool =>
        ⟨id, tool.name, securityFn tool.name⟩

/-- The tool security of one handle. -/
def securityOf (handle : McpServerHandle) (toolName : String) : Option ToolSecurityMetadata :=
  computeToolSecurity handle.mgpNegotiated handle.config.requiredPermissions toolName

/-- The registration at the end of `connect_server`: the handle, the routes to
its tools unless it is a reasoning engine, and its capabilities. -/
def register (manager : Manager) (handle : McpServerHandle)
    (toolsForCapability : Option (List (String × List String))) : Manager :=
  let id := handle.config.id
  let engine := toolsExposeReasoning handle.tools
  { servers := Function.update manager.servers id (some handle)
    toolIndex := if engine then manager.toolIndex else indexTools manager.toolIndex id handle.tools
    richToolIndex :=
      if engine then manager.richToolIndex
      else addServerTools manager.richToolIndex id handle.tools (securityOf handle)
    dispatcher :=
      match toolsForCapability with
      | some map => Dispatcher.buildFromCapabilities manager.dispatcher id map
      | none => Dispatcher.buildFromTools manager.dispatcher id handle.tools }

/-- `disconnect_server`: the name of each of its tools is taken out of the
routing index, and the mappings stay. -/
def disconnectServer (manager : Manager) (id : String) : Except String Manager :=
  match manager.servers id with
  | none => .error s!"MCP server '{id}' not found"
  | some handle =>
      .ok
        { manager with
          servers := Function.update manager.servers id none
          toolIndex := fun name =>
            if handle.toolNames.contains name then none else manager.toolIndex name
          richToolIndex := removeServerTools manager.richToolIndex id }

/-- `remove_server`, whose row of the database is not the manager's. -/
def removeServer (manager : Manager) (id : String) : Except String Manager :=
  manager.disconnectServer id

/-- The handle that a stop leaves behind. -/
def stoppedHandle (handle : McpServerHandle) : McpServerHandle :=
  { config := handle.config
    client := none
    tools := []
    mgpNegotiated := none
    status := .disconnected
    isolationProfile := none }

/-- A stopped server keeps its configuration, and nothing routes to it. -/
def clear (manager : Manager) (id : String) (handle : McpServerHandle) : Manager where
  servers := Function.update manager.servers id (some (stoppedHandle handle))
  toolIndex := fun name =>
    if manager.toolIndex name = some id then none else manager.toolIndex name
  richToolIndex := removeServerTools manager.richToolIndex id
  dispatcher := Dispatcher.removeServer manager.dispatcher id

/-- `stop_server` -/
def stopServer (manager : Manager) (id : String) : Except String Manager :=
  match manager.servers id with
  | none => .error s!"Server '{id}' not found or already stopped"
  | some handle =>
      if handle.status = .disconnected then .error s!"Server '{id}' is already stopped"
      else .ok (manager.clear id handle)

/-- `get_tool_risk_level` -/
def getToolRiskLevel (manager : Manager) (toolName : String) : Option RiskLevel :=
  (manager.toolIndex toolName).bind fun serverId =>
    (manager.servers serverId).bind fun handle =>
      (securityOf handle toolName).map ToolSecurityMetadata.effectiveRiskLevel

/-! ## Routes -/

/-- The last server that registers a name owns it. -/
theorem indexTools_apply (toolIndex : String → Option String) (id name : String)
    (tools : List McpTool) :
    indexTools toolIndex id tools name =
      if name ∈ tools.map McpTool.name ∧ isReservedName name = false then some id
      else toolIndex name := by
  induction tools generalizing toolIndex with
  | nil => simp [indexTools]
  | cons tool rest ih =>
      have unfolded : indexTools toolIndex id (tool :: rest) =
          indexTools
            (if isReservedName tool.name then toolIndex
              else Function.update toolIndex tool.name (some id)) id rest := rfl
      rw [unfolded, ih]
      by_cases same : name = tool.name
      · cases reserved : isReservedName tool.name with
        | true => simp [same, reserved]
        | false => simp [same, reserved]
      · have others : (if isReservedName tool.name then toolIndex
            else Function.update toolIndex tool.name (some id)) name = toolIndex name := by
          split
          · rfl
          · exact Function.update_of_ne same ..
        rw [others]
        simp [same]

/-! ## Statuses -/

@[simp]
theorem modify_self (manager : Manager) (id : String) (change : McpServerHandle → McpServerHandle) :
    (manager.modify id change).servers id = (manager.servers id).map change := by
  unfold modify
  cases here : manager.servers id with
  | none => exact here
  | some handle => exact Function.update_self ..

theorem modify_of_ne (manager : Manager) {id other : String} (apart : other ≠ id)
    (change : McpServerHandle → McpServerHandle) :
    (manager.modify id change).servers other = manager.servers other := by
  unfold modify
  cases manager.servers id with
  | none => rfl
  | some handle => exact Function.update_of_ne apart ..

@[simp]
theorem modify_toolIndex (manager : Manager) (id : String)
    (change : McpServerHandle → McpServerHandle) :
    (manager.modify id change).toolIndex = manager.toolIndex := by
  unfold modify
  cases manager.servers id <;> rfl

@[simp]
theorem modify_richToolIndex (manager : Manager) (id : String)
    (change : McpServerHandle → McpServerHandle) :
    (manager.modify id change).richToolIndex = manager.richToolIndex := by
  unfold modify
  cases manager.servers id <;> rfl

@[simp]
theorem modify_dispatcher (manager : Manager) (id : String)
    (change : McpServerHandle → McpServerHandle) :
    (manager.modify id change).dispatcher = manager.dispatcher := by
  unfold modify
  cases manager.servers id <;> rfl

theorem statusOf_setStatus (manager : Manager) (id : String) (status : ServerStatus) :
    (manager.setStatus id status).statusOf id = (manager.statusOf id).map fun _ => status := by
  rw [statusOf, setStatus, modify_self, statusOf, Option.map_map, Option.map_map]
  rfl

theorem statusOf_setServerError (manager : Manager) (id message : String) :
    (manager.setServerError id message).statusOf id =
      (manager.statusOf id).map fun _ => .error message := by
  rw [statusOf, setServerError, modify_self, statusOf, Option.map_map, Option.map_map]
  rfl

end Manager

end ClotoCore.Mcp
