import ClotoCore.Lookup.Firsts
import ClotoCore.Mcp.ToolCall

/-!
# The tools an agent is offered

An agent is shown the tools of the kernel it may use and, of the connected
servers in the order in which their map is read, the tools it is granted, each
name once.  A call by that name goes where the index routes it, which need not be
the server whose tool was shown.
-/

namespace ClotoCore.Mcp

open ClotoCore.Access ClotoCore.Approval ClotoCore.Json ClotoCore.Lookup

/-! ## Collecting -/

/-- `kernel_tool_schemas`, which are shown in YOLO mode. -/
def kernelToolSchemaNames : List String :=
  ["mgp.kernel.create_mcp_server", "mgp.access.query", "mgp.access.grant", "mgp.access.revoke",
    "mgp.audit.replay", "mgp.health.ping", "mgp.health.status", "mgp.lifecycle.shutdown",
    "mgp.stream.cancel", "mgp.stream.pace", "mgp.events.subscribe", "mgp.events.unsubscribe",
    "mgp.events.replay", "mgp.events.pending_callbacks", "mgp.callback.respond", "mgp.agent.ask",
    "gui.map", "gui.read", "mgp.discovery.list", "mgp.discovery.register",
    "mgp.discovery.deregister", "mgp.tools.session", "mgp.tools.session.evict"]

/-- `llm_meta_tool_schemas`, which are always shown. -/
def metaToolNames : List String :=
  ["mgp.tools.discover", "mgp.tools.request"]

/-- The tools to ask the operator and to read the answer. -/
def operatorToolNames : List String :=
  ["mgp.operator.ask", "mgp.operator.replies"]

/-- Where a schema comes from. -/
inductive Provider where
  | kernel
  | server (serverId : String)
  deriving DecidableEq

/-- A schema, as far as it tells one tool from another. -/
structure ToolSchema where
  name : String
  provider : Provider
  security : Option ToolSecurityMetadata

/-- What a collection reads: the state, the mode, whether the agent has skills, and
the servers in some order. -/
structure Listing where
  state : CallState
  yolo : Bool
  skilled : Bool
  scan : List (String × McpServerHandle)
  /-- The order passes each server once, with the handle it has. -/
  distinct : (scan.map Prod.fst).Nodup
  covers : ∀ id handle, (id, handle) ∈ scan ↔ state.manager.servers id = some handle

/-- An explicit Deny of a tool of the kernel. -/
def explicitlyDenied (database : Database) (agentId toolName : String) : Bool :=
  match database.explicitPermission agentId "kernel" toolName with
  | .ok (some .deny) => true
  | _ => false

/-- The tools of the kernel that may be hidden. -/
def hideableNames (yolo skilled : Bool) : List String :=
  (if yolo then kernelToolSchemaNames else []) ++ (if skilled then ["mgp.skill.load"] else [])
    ++ operatorToolNames

/-- The schemas of the kernel. -/
def kernelSchemas (listing : Listing) (agentId : String) : List ToolSchema :=
  let shown := fun name => !explicitlyDenied listing.state.database agentId name
  let names :=
    (if listing.yolo then kernelToolSchemaNames.filter shown else []) ++ metaToolNames
      ++ (if listing.skilled then ["mgp.skill.load"].filter shown else [])
      ++ operatorToolNames.filter shown
  names.map fun name => ⟨name, .kernel, none⟩

/-- The kernel speaks itself where a server can. -/
def isSilenced (manager : Manager) (toolName : String) : Bool :=
  toolName == "speak" && (manager.dispatcher .speech).any fun mapping => mapping.toolName == toolName

/-- The schema of a tool of a server. -/
def serverSchema (id : String) (handle : McpServerHandle) (tool : McpTool) : ToolSchema :=
  ⟨tool.name, .server id, Manager.securityOf handle tool.name⟩

/-- One tool of a connected server. -/
def collectTool (state : CallState) (agentId id : String) (handle : McpServerHandle)
    (schemas : List ToolSchema) (tool : McpTool) : List ToolSchema :=
  if isSilenced state.manager tool.name then schemas
  else if tool.name ∈ schemas.map ToolSchema.name then schemas
  else if Granted state.database agentId id tool.name then
    schemas ++ [serverSchema id handle tool]
  else schemas

/-- One server: it is passed if it is not connected or a reasoning engine. -/
def collectServer (state : CallState) (agentId : String) (schemas : List ToolSchema)
    (entry : String × McpServerHandle) : List ToolSchema :=
  if entry.2.status ≠ .connected then schemas
  else if toolsExposeReasoning entry.2.tools then schemas
  else entry.2.tools.foldl (collectTool state agentId entry.1 entry.2) schemas

/-- `collect_tool_schemas_for_agent`, over the servers in one order. -/
def collectToolSchemasForAgent (listing : Listing) (agentId : String)
    (scan : List (String × McpServerHandle)) : List ToolSchema :=
  scan.foldl (collectServer listing.state agentId) (kernelSchemas listing agentId)

/-! ## What is collected -/

/-- The kernel shows one of its tools. -/
def KernelOffers (listing : Listing) (agentId toolName : String) : Prop :=
  toolName ∈ metaToolNames ∨
    toolName ∈ hideableNames listing.yolo listing.skilled ∧
      explicitlyDenied listing.state.database agentId toolName = false

/-- A server can be the one whose tool is shown. -/
structure Listed (state : CallState) (agentId id : String) (handle : McpServerHandle)
    (tool : McpTool) : Prop where
  connected : handle.status = .connected
  notEngine : toolsExposeReasoning handle.tools = false
  listed : tool ∈ handle.tools
  audible : isSilenced state.manager tool.name = false
  granted : Granted state.database agentId id tool.name

/-- The schemas that one server can add. -/
def candidates (state : CallState) (agentId : String) (entry : String × McpServerHandle) :
    List ToolSchema :=
  if entry.2.status = .connected ∧ toolsExposeReasoning entry.2.tools = false then
    (entry.2.tools.filter fun tool =>
      !isSilenced state.manager tool.name &&
        decide (Granted state.database agentId entry.1 tool.name)).map
      (serverSchema entry.1 entry.2)
  else []

section Collected

variable {texts : Texts} {listing : Listing} {state : CallState} {agentId id : String}
  {handle : McpServerHandle} {schemas : List ToolSchema} {schema : ToolSchema}
  {scan : List (String × McpServerHandle)} {tool : McpTool}

theorem mem_candidates_iff : schema ∈ candidates state agentId (id, handle) ↔
    ∃ tool, Listed state agentId id handle tool ∧ schema = serverSchema id handle tool := by
  unfold candidates
  constructor
  · intro mem
    split at mem
    · rename_i passed
      rcases List.mem_map.mp mem with ⟨tool, toolMem, rfl⟩
      simp only [List.mem_filter, Bool.and_eq_true, Bool.not_eq_true', decide_eq_true_eq]
        at toolMem
      rcases toolMem with ⟨listed, audible, granted⟩
      exact ⟨tool, ⟨passed.1, passed.2, listed, audible, granted⟩, rfl⟩
    · cases mem
  · rintro ⟨tool, listed, rfl⟩
    rw [if_pos ⟨listed.connected, listed.notEngine⟩]
    apply List.mem_map_of_mem
    simp only [List.mem_filter, Bool.and_eq_true, Bool.not_eq_true', decide_eq_true_eq]
    exact ⟨listed.listed, listed.audible, listed.granted⟩

/-- A server adds the first of its candidates for each new name. -/
theorem collectServer_eq (entry : String × McpServerHandle) :
    collectServer state agentId schemas entry =
      addFirsts ToolSchema.name schemas (candidates state agentId entry) := by
  unfold collectServer candidates
  by_cases connected : entry.2.status = .connected
  · cases engine : toolsExposeReasoning entry.2.tools with
    | true => simp [connected, addFirsts]
    | false =>
        simp only [connected, ne_eq, not_true, if_false, Bool.false_eq_true, and_self, if_true]
        induction entry.2.tools generalizing schemas with
        | nil => rfl
        | cons tool rest ih =>
            rw [List.foldl_cons, ih, List.filter_cons]
            by_cases silenced : isSilenced state.manager tool.name = true
            · simp [collectTool, silenced]
            · by_cases granted : Granted state.database agentId entry.1 tool.name
              · simp [collectTool, silenced, granted, addFirsts, addNew, serverSchema]
              · simp [collectTool, silenced, granted]
  · simp [connected, addFirsts]

theorem foldl_collectServer (scan : List (String × McpServerHandle)) (schemas : List ToolSchema) :
    scan.foldl (collectServer state agentId) schemas =
      addFirsts ToolSchema.name schemas (scan.flatMap (candidates state agentId)) := by
  induction scan generalizing schemas with
  | nil => rfl
  | cons entry rest ih =>
      rw [List.foldl_cons, ih, collectServer_eq, List.flatMap_cons, addFirsts_append]

/-- A collection is the schemas of the kernel and the first candidate for each
other name. -/
theorem collectToolSchemasForAgent_eq :
    collectToolSchemasForAgent listing agentId scan =
      addFirsts ToolSchema.name (kernelSchemas listing agentId)
        (scan.flatMap (candidates listing.state agentId)) :=
  foldl_collectServer scan (kernelSchemas listing agentId)

theorem mem_kernelSchemas_iff : schema ∈ kernelSchemas listing agentId ↔
    KernelOffers listing agentId schema.name ∧ schema.provider = .kernel ∧
      schema.security = none := by
  have names (name : String) : KernelOffers listing agentId name ↔
      name ∈ (if listing.yolo then kernelToolSchemaNames.filter fun name =>
            !explicitlyDenied listing.state.database agentId name else []) ++ metaToolNames
          ++ (if listing.skilled then ["mgp.skill.load"].filter fun name =>
            !explicitlyDenied listing.state.database agentId name else [])
          ++ operatorToolNames.filter fun name =>
            !explicitlyDenied listing.state.database agentId name := by
    rw [KernelOffers, hideableNames]
    cases listing.yolo <;> cases listing.skilled <;>
      simp only [Bool.false_eq_true, if_true, if_false, List.mem_append, List.mem_filter,
        List.not_mem_nil, Bool.not_eq_true'] <;> tauto
  rcases schema with ⟨name, provider, security⟩
  rw [kernelSchemas, List.mem_map]
  constructor
  · rintro ⟨other, mem, same⟩
    cases same
    exact ⟨(names name).mpr mem, rfl, rfl⟩
  · rintro ⟨offered, rfl, rfl⟩
    exact ⟨name, (names name).mp offered, rfl⟩

theorem name_mem_kernelSchemas_iff {name : String} :
    name ∈ (kernelSchemas listing agentId).map ToolSchema.name ↔
      KernelOffers listing agentId name := by
  constructor
  · intro mem
    rcases List.mem_map.mp mem with ⟨schema, schemaMem, rfl⟩
    exact (mem_kernelSchemas_iff.mp schemaMem).1
  · intro offered
    have mem : ⟨name, .kernel, none⟩ ∈ kernelSchemas listing agentId :=
      mem_kernelSchemas_iff.mpr ⟨offered, rfl, rfl⟩
    exact List.mem_map_of_mem mem

/-- The kernel shows each of its names once. -/
theorem nodup_kernelSchemas : ((kernelSchemas listing agentId).map ToolSchema.name).Nodup := by
  have all : (kernelToolSchemaNames ++ metaToolNames ++ ["mgp.skill.load"]
      ++ operatorToolNames).Nodup := by decide +kernel
  rw [kernelSchemas, List.map_map]
  have same : ToolSchema.name ∘ (fun name => (⟨name, .kernel, none⟩ : ToolSchema)) = id := rfl
  rw [same, List.map_id]
  apply List.Nodup.sublist _ all
  refine .append (.append (.append ?_ (.refl _)) ?_) List.filter_sublist
  · split
    · exact List.filter_sublist
    · exact List.nil_sublist _
  · split
    · exact List.filter_sublist
    · exact List.nil_sublist _

/-- No two schemas have one name, whatever the servers list. -/
theorem nodup_collectToolSchemasForAgent :
    ((collectToolSchemasForAgent listing agentId scan).map ToolSchema.name).Nodup := by
  rw [collectToolSchemasForAgent_eq]
  exact nodup_addFirsts nodup_kernelSchemas

/-- What is collected is a schema of the kernel, or one of a server that can show
its tool under a name that the kernel does not show. -/
theorem mem_collect (same : scan.Perm listing.scan)
    (mem : schema ∈ collectToolSchemasForAgent listing agentId scan) :
    schema ∈ kernelSchemas listing agentId ∨
      ∃ id handle tool, listing.state.manager.servers id = some handle ∧
        Listed listing.state agentId id handle tool ∧
          ¬KernelOffers listing agentId tool.name ∧ schema = serverSchema id handle tool := by
  rw [collectToolSchemasForAgent_eq] at mem
  rcases mem_addFirsts mem with ofKernel | ⟨candidate, fresh⟩
  · exact .inl ofKernel
  · rcases List.mem_flatMap.mp candidate with ⟨⟨id, handle⟩, entryMem, added⟩
    rcases mem_candidates_iff.mp added with ⟨tool, listed, rfl⟩
    refine .inr ⟨id, handle, tool, (listing.covers id handle).mp (same.mem_iff.mp entryMem),
      listed, ?_, rfl⟩
    intro offered
    exact fresh (name_mem_kernelSchemas_iff.mpr offered)

/-- Each server that can show a tool shows it in the order that passes it first. -/
theorem exists_scan_of_listed (here : listing.state.manager.servers id = some handle)
    (listed : Listed listing.state agentId id handle tool)
    (apart : ¬KernelOffers listing agentId tool.name) :
    ∃ scan, scan.Perm listing.scan ∧
      serverSchema id handle tool ∈ collectToolSchemasForAgent listing agentId scan := by
  rcases List.mem_iff_append.mp ((listing.covers id handle).mpr here) with ⟨before, after, split⟩
  have candidate := mem_candidates_iff.mpr ⟨tool, listed, rfl⟩
  refine ⟨(id, handle) :: (before ++ after), by rw [split]; exact List.perm_middle.symm, ?_⟩
  rw [collectToolSchemasForAgent_eq, List.flatMap_cons, addFirsts_append]
  apply subset_addFirsts
  have named : tool.name ∈ (addFirsts ToolSchema.name (kernelSchemas listing agentId)
      (candidates listing.state agentId (id, handle))).map ToolSchema.name :=
    key_mem_addFirsts candidate
  rcases List.mem_map.mp named with ⟨schema, mem, same⟩
  rcases mem_addFirsts mem with ofKernel | ⟨shown, _⟩
  · have offered := (mem_kernelSchemas_iff.mp ofKernel).1
    rw [same] at offered
    exact absurd offered apart
  · rcases mem_candidates_iff.mp shown with ⟨other, _, rfl⟩
    -- tools of one name have one schema
    have sameName : other.name = tool.name := same
    rw [serverSchema, sameName] at mem
    exact mem

end Collected

/-! ## What is executed -/

/-- Who executes a call. -/
def Target.provider : Target → Provider
  | .kernel _ => .kernel
  | .server serverId _ => .server serverId

/-- A call of a tool that was shown passes the gates and is executed by the one
whose schema was shown. -/
def Executes (texts : Texts) (state : CallState) (agentId : String) (schema : ToolSchema)
    (args : Value) : Prop :=
  ∃ target, executeToolInternal texts state (.agent agentId) schema.name args = .ok target ∧
    target.provider = schema.provider

/-- Every tool that an agent is shown is executed when it is called with its
arguments, in whatever order the servers were read, and no name is shown twice. -/
structure OfferedExecutable (texts : Texts) (listing : Listing) (agentId : String)
    (args : String → Value) : Prop where
  executed : ∀ scan, scan.Perm listing.scan →
    ∀ schema ∈ collectToolSchemasForAgent listing agentId scan,
      Executes texts listing.state agentId schema (args schema.name)
  distinct : ∀ scan, scan.Perm listing.scan →
    ((collectToolSchemasForAgent listing agentId scan).map ToolSchema.name).Nodup

/-- The tools that are always shown are not denied, the other ones of the kernel can
be checked, and every server that can show a tool is the one its calls reach. -/
structure RoutedAsListed (texts : Texts) (listing : Listing) (agentId : String)
    (args : String → Value) : Prop where
  always : ∀ name ∈ metaToolNames,
    enforceKernelRbac listing.state.database (.agent agentId) name = .ok ()
  readable : ∀ name ∈ hideableNames listing.yolo listing.skilled,
    listing.state.database.fault (.explicitPermission agentId "kernel" name) = none
  routed : ∀ id handle tool, listing.state.manager.servers id = some handle →
    Listed listing.state agentId id handle tool → ¬KernelOffers listing agentId tool.name →
      RoutedTo listing.state (.agent agentId) id tool.name ∧ handle.client.isSome = true ∧
        MeetsRules texts listing.state.database agentId id tool.name (args tool.name) ∧
          validateCall texts tool.name (args tool.name) = .ok ()

section Executed

variable {texts : Texts} {listing : Listing} {state : CallState} {agentId id : String}
  {handle : McpServerHandle} {tool : McpTool} {args : Value}

/-- The tools that the kernel can show are tools that it answers. -/
theorem kernel_names {name : String} (offered : KernelOffers listing agentId name) :
    name ∈ kernelToolNames ∧ isKernelNativeTool name = true := by
  have shown : name ∈ kernelToolSchemaNames ++ metaToolNames ++ ["mgp.skill.load"]
      ++ operatorToolNames := by
    rw [KernelOffers, hideableNames] at offered
    revert offered
    cases listing.yolo <;> cases listing.skilled <;>
      simp only [Bool.false_eq_true, if_true, if_false, List.mem_append, List.not_mem_nil] <;>
      tauto
  have all : (kernelToolSchemaNames ++ metaToolNames ++ ["mgp.skill.load"]
      ++ operatorToolNames).all fun name =>
        kernelToolNames.contains name && isKernelNativeTool name := by decide +kernel
  simpa using List.all_eq_true.mp all name shown

/-- A tool of the kernel is executed if the agent passes the kernel's gate. -/
theorem executes_kernel_iff {schema : ToolSchema}
    (ofKernel : schema ∈ kernelSchemas listing agentId) :
    Executes texts state agentId schema args ↔
      enforceKernelRbac state.database (.agent agentId) schema.name = .ok () := by
  rcases mem_kernelSchemas_iff.mp ofKernel with ⟨offered, provider, _⟩
  rcases kernel_names offered with ⟨mem, native⟩
  simp only [Executes, executeToolInternal_of_mem mem, enforceKernelGate, native, if_true]
  constructor
  · rintro ⟨target, ⟨gate, _⟩, _⟩
    exact gate
  · intro gate
    exact ⟨.kernel schema.name, ⟨gate, rfl⟩, provider.symm⟩

theorem clientOf_iff {client : Nat} : clientOf state.manager id = .ok client ↔
    ∃ handle, state.manager.servers id = some handle ∧ handle.client = some client := by
  unfold clientOf
  cases state.manager.servers id with
  | none => simp
  | some handle =>
      cases here : handle.client with
      | none => simp [here]
      | some other => simp [here]

/-- A tool of a server is executed if its name is routed there and the arguments are
admitted. -/
theorem executes_server_iff (here : state.manager.servers id = some handle)
    (granted : Granted state.database agentId id tool.name) :
    Executes texts state agentId (serverSchema id handle tool) args ↔
      RoutedTo state (.agent agentId) id tool.name ∧ handle.client.isSome = true ∧
        MeetsRules texts state.database agentId id tool.name args ∧
          validateCall texts tool.name args = .ok () := by
  constructor
  · rintro ⟨target, executed, provider⟩
    by_cases mem : tool.name ∈ kernelToolNames
    · have answered := ((executeToolInternal_of_mem mem).mp executed).2
      rw [answered] at provider
      cases provider
    · rcases (executeToolInternal_of_notMem mem).mp executed with ⟨gate, route⟩
      rcases routeTool_iff.mp route with ⟨serverId, client, index, found, grant, validated, rfl⟩
      cases provider
      rcases clientOf_iff.mp found with ⟨other, otherHere, clientEq⟩
      rw [here] at otherHere
      cases otherHere
      exact ⟨⟨mem, gate, index⟩, by rw [clientEq]; rfl, (enforceCallerGrant_agent_iff.mp grant).2,
        validated⟩
  · rintro ⟨route, connected, rules, validated⟩
    rcases Option.isSome_iff_exists.mp connected with ⟨client, clientEq⟩
    refine ⟨.server id client, ?_, rfl⟩
    apply (executeToolInternal_of_notMem route.notKernel).mpr
    refine ⟨route.gate, routeTool_iff.mpr ⟨id, client, route.index, ?_, ?_, validated, rfl⟩⟩
    · exact clientOf_iff.mpr ⟨handle, here, clientEq⟩
    · exact enforceCallerGrant_agent_iff.mpr ⟨granted, rules⟩

/-- A query of the kernel's gate that can be read lets the tools pass that it shows. -/
theorem enforceKernelRbac_of_shown {database : Database} {name : String}
    (readable : database.fault (.explicitPermission agentId "kernel" name) = none)
    (shown : explicitlyDenied database agentId name = false) :
    enforceKernelRbac database (.agent agentId) name = .ok () := by
  apply enforceKernelRbac_agent_iff.mpr
  refine ⟨resolveExplicitPermission database.clock database.rows agentId "kernel" name, ?_, ?_⟩
  · simp [Database.explicitPermission, Database.query, readable]
  · intro denied
    simp [explicitlyDenied, Database.explicitPermission, Database.query, readable, denied] at shown

/-- A query that fails hides nothing and lets nothing pass. -/
theorem fault_of_enforceKernelRbac {database : Database} {name : String}
    (passed : explicitlyDenied database agentId name = false →
      enforceKernelRbac database (.agent agentId) name = .ok ()) :
    database.fault (.explicitPermission agentId "kernel" name) = none := by
  cases failed : database.fault (.explicitPermission agentId "kernel" name) with
  | none => rfl
  | some problem =>
      have shown : explicitlyDenied database agentId name = false := by
        simp [explicitlyDenied, Database.explicitPermission, Database.query, failed]
      rcases enforceKernelRbac_agent_iff.mp (passed shown) with ⟨answer, read, _⟩
      simp [Database.explicitPermission, Database.query, failed] at read

end Executed

/-- An agent can call exactly what it is shown if and only if every tool is routed as
it is listed. -/
theorem offeredExecutable_iff (texts : Texts) (listing : Listing) (agentId : String)
    (args : String → Value) :
    OfferedExecutable texts listing agentId args ↔ RoutedAsListed texts listing agentId args := by
  constructor
  · intro executable
    have ofKernel (name : String) (offered : KernelOffers listing agentId name) :
        enforceKernelRbac listing.state.database (.agent agentId) name = .ok () := by
      have mem : ⟨name, .kernel, none⟩ ∈ kernelSchemas listing agentId :=
        mem_kernelSchemas_iff.mpr ⟨offered, rfl, rfl⟩
      have collected : ⟨name, .kernel, none⟩ ∈
          collectToolSchemasForAgent listing agentId listing.scan := by
        rw [collectToolSchemasForAgent_eq]
        exact subset_addFirsts mem
      exact (executes_kernel_iff mem).mp (executable.executed _ (.refl _) _ collected)
    constructor
    · intro name mem
      exact ofKernel name (.inl mem)
    · intro name mem
      exact fault_of_enforceKernelRbac fun shown => ofKernel name (.inr ⟨mem, shown⟩)
    · intro id handle tool here listed apart
      rcases exists_scan_of_listed here listed apart with ⟨scan, same, mem⟩
      exact (executes_server_iff here listed.granted).mp (executable.executed scan same _ mem)
  · intro routed
    constructor
    · intro scan same schema mem
      rcases mem_collect same mem with ofKernel | ⟨id, handle, tool, here, listed, apart, rfl⟩
      · apply (executes_kernel_iff ofKernel).mpr
        rcases (mem_kernelSchemas_iff.mp ofKernel).1 with always | ⟨hideable, shown⟩
        · exact routed.always _ always
        · exact enforceKernelRbac_of_shown (routed.readable _ hideable) shown
      · exact (executes_server_iff here listed.granted).mpr
          (routed.routed id handle tool here listed apart)
    · intro scan same
      exact nodup_collectToolSchemasForAgent

/-! ## Two servers with one tool -/

/-- Every tool that is shown can be called, whatever the state and the arguments. -/
def AlwaysExecutable : Prop :=
  ∀ (texts : Texts) (listing : Listing) (agentId : String) (args : String → Value),
    OfferedExecutable texts listing agentId args

/-- The server that registered the tool first has the grant, and the one that
registered it last has the route. -/
def sharedToolState : CallState where
  manager := (Manager.empty.register (connectedHandle "files" ["read_file"]) none).register
    (connectedHandle "backup" ["read_file"]) none
  database := quietDatabase [toolGrant .allow]

/-- The tool that both list. -/
def sharedTool : McpTool :=
  ⟨"read_file", none⟩

theorem sharedToolState_servers : sharedToolState.manager.servers =
    Function.update (Function.update (fun _ => none) "files"
      (some (connectedHandle "files" ["read_file"]))) "backup"
      (some (connectedHandle "backup" ["read_file"])) :=
  rfl

/-- The two servers in the order in which they came. -/
def sharedToolListing : Listing where
  state := sharedToolState
  yolo := false
  skilled := false
  scan := [("files", connectedHandle "files" ["read_file"]),
    ("backup", connectedHandle "backup" ["read_file"])]
  distinct := by decide
  covers := by
    intro id handle
    rw [sharedToolState_servers]
    by_cases backup : id = "backup"
    · simp [backup]
      exact eq_comm
    · by_cases files : id = "files"
      · simp [files]
        exact eq_comm
      · simp [files, backup]

/-- The agent is shown the tool of the first server, and a call goes to the other. -/
theorem not_alwaysExecutable : ¬AlwaysExecutable := by
  intro always
  have here : sharedToolListing.state.manager.servers "files" =
      some (connectedHandle "files" ["read_file"]) := rfl
  have listed : Listed sharedToolListing.state "agent.a" "files"
      (connectedHandle "files" ["read_file"]) sharedTool := by
    constructor
    · rfl
    · decide
    · exact List.mem_singleton.mpr rfl
    · decide
    · decide
  have apart : ¬KernelOffers sharedToolListing "agent.a" sharedTool.name := by
    intro offered
    have native := (kernel_names offered).2
    contradiction
  rcases exists_scan_of_listed here listed apart with ⟨scan, same, mem⟩
  have executes := (always plainTexts sharedToolListing "agent.a" fun _ => .null).executed
    scan same _ mem
  have index := ((executes_server_iff here listed.granted).mp executes).1.index
  have routed : sharedToolListing.state.manager.toolIndex sharedTool.name = some "backup" := by
    decide
  rw [routed] at index
  contradiction

end ClotoCore.Mcp
