import ClotoCore.Access.Gate
import ClotoCore.Encoding.Text
import ClotoCore.Mcp.Manager

/-!
# The two ways to a tool

A tool is called by its name, which the kernel answers itself or routes by the
index, or on a server that the caller names.  Only the second way looks at the
delegation of a call.
-/

namespace ClotoCore.Mcp

open ClotoCore.Access ClotoCore.Approval ClotoCore.Json

/-! ## The state of a call -/

/-- The servers, the routes and the tables that a call is decided by. -/
structure CallState where
  manager : Manager
  database : Database

/-- `is_operational` -/
def ServerStatus.isOperational : ServerStatus → Bool
  | .connected => true
  | _ => false

/-- `MgpError::permission_denied` -/
def permissionDenied (message : String) : ToolFailure :=
  .mgpError 1000 message

/-- `MgpError::tool_not_found` -/
def toolNotFound (message : String) : ToolFailure :=
  .mgpError 4001 message

/-- `MgpError::server_not_ready` -/
def serverNotReady (message : String) : ToolFailure :=
  .mgpError 2000 message

/-- The client of a server that is there and connected. -/
def clientOf (manager : Manager) (serverId : String) : Except ToolFailure Nat :=
  match manager.servers serverId with
  | none => .error (toolNotFound s!"MCP server '{serverId}' not found")
  | some handle =>
      match handle.client with
      | none => .error (serverNotReady s!"MCP server '{serverId}' not connected")
      | some client => .ok client

/-! ## Validated arguments -/

/-- `SANDBOX_BLOCKED_PATTERNS` -/
def sandboxBlockedPatterns : List String :=
  ["rm -rf /", "rm -fr /", "mkfs", "dd if=/dev", ":()\x7b :|:& \x7d;:", "> /dev/sda", "shutdown",
    "reboot", "init 0", "init 6", "chmod -r 777 /", "chown -r", "sudo ", "su ", "su\t", "doas ",
    "/bin/rm -rf", "/usr/bin/rm -rf"]

/-- `SANDBOX_BLOCKED_METACHAR` -/
def sandboxBlockedMetachar : List String :=
  ["$(", "\x60", "|", ";", "&&", "||"]

/-- `str::contains` -/
def containsText (text pattern : String) : Bool :=
  text.toList.tails.any fun rest => pattern.toList.isPrefixOf rest

/-- `split_whitespace` -/
def splitWhitespace (text : String) : List (List Char) :=
  (text.toList.splitOnP Encoding.isWhitespace).filter fun word => !word.isEmpty

/-- A word of short flags one of which is among `letters`. -/
def hasFlag (letters : List Char) (word : List Char) : Bool :=
  "-".toList.isPrefixOf word && !"--".toList.isPrefixOf word && letters.any word.contains

/-- `rm`, under its name or a path to it. -/
def isRm (word : List Char) : Bool :=
  word == "rm".toList || "/rm".toList.isSuffixOf word

/-- `validate_sandbox_args` -/
def validateSandboxArgs (texts : Texts) (args : Value) : Except ToolFailure Unit :=
  match args.getStr "command" with
  | none => .ok ()
  | some command =>
      if Encoding.trim command = "" then
        .error (.error "Kernel validation: empty command is not allowed")
      else
        let lower := texts.toLowercase (texts.nfkc command)
        if ['\n', '\r', '\u2028', '\u2029'].any lower.toList.contains then
          .error <| .error
            "Kernel validation: command contains embedded newline or line separator"
        else
          match sandboxBlockedMetachar.find? (containsText lower) with
          | some found => .error <| .error
              s!"Kernel validation: command contains blocked shell metacharacter: '{found}'"
          | none =>
              match sandboxBlockedPatterns.find? (containsText lower) with
              | some pattern => .error <| .error
                  s!"Kernel validation: command contains blocked pattern: '{pattern}'"
              | none =>
                  let tokens := splitWhitespace lower
                  if tokens.head?.any isRm && tokens.any (hasFlag ['r', 'R'])
                      && tokens.any (hasFlag ['f']) then
                    .error <| .error
                      "Kernel validation: command contains dangerous rm flags (-r and -f)"
                  else .ok ()

/-- `validate_tool_arguments`: an unknown validator is skipped. -/
def validateToolArguments (texts : Texts) (validator : String) (args : Value) :
    Except ToolFailure Unit :=
  if validator = "sandbox" then validateSandboxArgs texts args else .ok ()

/-- The validation that both ways make before they forward a call. -/
def validateCall (texts : Texts) (toolName : String) (args : Value) : Except ToolFailure Unit :=
  match getKernelValidator toolName with
  | none => .ok ()
  | some validator => validateToolArguments texts validator args

/-! ## Calls by name -/

/-- The tools that the kernel answers itself. -/
def kernelToolNames : List String :=
  ["mgp.kernel.create_mcp_server", "mgp.access.query", "mgp.access.grant", "mgp.access.revoke",
    "mgp.audit.replay", "mgp.health.ping", "mgp.health.status", "mgp.lifecycle.shutdown",
    "mgp.stream.cancel", "mgp.stream.pace", "mgp.events.subscribe", "mgp.events.unsubscribe",
    "mgp.events.replay", "mgp.events.pending_callbacks", "mgp.callback.respond",
    "mgp.discovery.list", "mgp.discovery.register", "mgp.discovery.deregister",
    "mgp.tools.discover", "mgp.tools.request", "mgp.tools.session", "mgp.tools.session.evict",
    "mgp.skill.load", "mgp.agent.ask", "mgp.operator.ask", "mgp.operator.replies", "gui.map",
    "gui.read"]

/-- Who executes a call that passes the gates. -/
inductive Target where
  | kernel (toolName : String)
  | server (serverId : String) (client : Nat)
  deriving DecidableEq

/-- The gate of the names that are reserved for the kernel. -/
def enforceKernelGate (state : CallState) (caller : Caller) (toolName : String) :
    Except ToolFailure Unit :=
  if isKernelNativeTool toolName then enforceKernelRbac state.database caller toolName else .ok ()

/-- The part of `execute_tool_internal` behind the kernel's own tools. -/
def routeTool (texts : Texts) (state : CallState) (caller : Caller) (toolName : String)
    (args : Value) : Except ToolFailure Target :=
  match state.manager.toolIndex toolName with
  | none => .error (toolNotFound s!"MCP tool '{toolName}' not found")
  | some serverId => do
      let client ← clientOf state.manager serverId
      enforceCallerGrant texts state.database caller serverId toolName args
      validateCall texts toolName args
      return .server serverId client

/-- `execute_tool_internal`, up to the execution itself. -/
def executeToolInternal (texts : Texts) (state : CallState) (caller : Caller) (toolName : String)
    (args : Value) : Except ToolFailure Target := do
  enforceKernelGate state caller toolName
  if toolName ∈ kernelToolNames then .ok (.kernel toolName)
  else routeTool texts state caller toolName args

/-! ## Calls on a server -/

/-- The chain of a delegation. -/
def checkChain (delegation : Value) : Except ToolFailure Unit :=
  match (delegation.get "chain").bind Value.asArray with
  | none => .ok ()
  | some chain =>
      if chain.length > 3 then
        let depth := chain.length
        .error (permissionDenied s!"Delegation chain depth {depth} exceeds maximum of 3")
      else .ok ()

/-- The actor a delegation goes back to: where its lookup fails it is unknown, and
where its access cannot be read it has none. -/
def checkOriginalActor (state : CallState) (serverId toolName : String) (delegation : Value) :
    Except ToolFailure Unit :=
  match delegation.getStr "original_actor" with
  | none => .ok ()
  | some actor =>
      match state.database.enabledAgent actor with
      | .ok true =>
          match state.database.toolAccess actor serverId toolName with
          | .ok .allow => .ok ()
          | _ => .error <| accessDenied
              s!"Delegation rejected: original_actor '{actor}' does not have access to {serverId}.{toolName} (MGP §5.6.1)"
      | _ => .error <| permissionDenied
          s!"Delegation rejected: original_actor '{actor}' is not a known active agent (MGP §5.6.3)"

/-- The server a delegation came through. -/
def checkDelegatedVia (state : CallState) (delegation : Value) : Except ToolFailure Unit :=
  match delegation.getStr "delegated_via" with
  | none => .ok ()
  | some via =>
      if (state.manager.statusOf via).any ServerStatus.isOperational then .ok ()
      else .error <| permissionDenied
        s!"Delegation rejected: delegated_via '{via}' is not a known operational server (MGP §5.6.3)"

/-- The delegation that the arguments carry. -/
def delegationOf (args : Value) : Option Value :=
  (args.get "_mgp").bind fun mgp => mgp.get "delegation"

/-- The check of the delegation. -/
def checkDelegation (state : CallState) (serverId toolName : String) (args : Value) :
    Except ToolFailure Unit :=
  match delegationOf args with
  | none => .ok ()
  | some delegation => do
      checkChain delegation
      checkOriginalActor state serverId toolName delegation
      checkDelegatedVia state delegation

/-- `resolve_tool_call_target`: the client of the server that is called. -/
def resolveToolCallTarget (texts : Texts) (state : CallState) (caller : Caller)
    (serverId toolName : String) (args : Value) : Except ToolFailure Nat := do
  enforceCallerGrant texts state.database caller serverId toolName args
  checkDelegation state serverId toolName args
  let client ← clientOf state.manager serverId
  validateCall texts toolName args
  return client

/-! ## What a forwarded call has passed -/

/-- The rules that a delegation which the arguments carry meets. -/
structure DelegationAdmitted (state : CallState) (serverId toolName : String) (args : Value) :
    Prop where
  chain : ∀ delegation, delegationOf args = some delegation → ∀ chain,
    (delegation.get "chain").bind Value.asArray = some chain → chain.length ≤ 3
  actor : ∀ delegation, delegationOf args = some delegation → ∀ actor,
    delegation.getStr "original_actor" = some actor →
      state.database.enabledAgent actor = .ok true ∧ Granted state.database actor serverId toolName
  via : ∀ delegation, delegationOf args = some delegation → ∀ via,
    delegation.getStr "delegated_via" = some via →
      state.manager.statusOf via = some .connected

section Passed

variable {texts : Texts} {state : CallState} {caller : Caller} {serverId toolName : String}
  {args delegation : Value} {client : Nat} {target : Target}

theorem checkChain_iff : checkChain delegation = .ok () ↔
    ∀ chain, (delegation.get "chain").bind Value.asArray = some chain → chain.length ≤ 3 := by
  rw [checkChain]
  cases (delegation.get "chain").bind Value.asArray with
  | none => simp
  | some chain =>
      by_cases long : chain.length > 3
      · simp [long]
      · simp [long, Nat.le_of_not_gt long]

theorem checkOriginalActor_iff : checkOriginalActor state serverId toolName delegation = .ok () ↔
    ∀ actor, delegation.getStr "original_actor" = some actor →
      state.database.enabledAgent actor = .ok true ∧
        Granted state.database actor serverId toolName := by
  rw [checkOriginalActor]
  cases delegation.getStr "original_actor" with
  | none => simp
  | some actor =>
      simp only [Option.some.injEq, forall_eq', Granted]
      cases state.database.enabledAgent actor with
      | error problem => simp
      | ok enabled =>
          cases enabled with
          | false => simp
          | true =>
              cases state.database.toolAccess actor serverId toolName with
              | error problem => simp
              | ok permission => cases permission <;> simp

theorem isOperational_iff {status : ServerStatus} :
    status.isOperational = true ↔ status = .connected := by
  cases status <;> simp [ServerStatus.isOperational]

theorem checkDelegatedVia_iff : checkDelegatedVia state delegation = .ok () ↔
    ∀ via, delegation.getStr "delegated_via" = some via →
      state.manager.statusOf via = some .connected := by
  rw [checkDelegatedVia]
  cases delegation.getStr "delegated_via" with
  | none => simp
  | some via =>
      cases known : state.manager.statusOf via with
      | none => simp [known]
      | some status => simp [known, isOperational_iff]

/-- The check passes the delegations that meet the rules. -/
theorem checkDelegation_iff : checkDelegation state serverId toolName args = .ok () ↔
    DelegationAdmitted state serverId toolName args := by
  rw [checkDelegation]
  cases carried : delegationOf args with
  | none =>
      simp only [true_iff]
      constructor <;> (rw [carried]; intro delegation here; cases here)
  | some delegation =>
      simp only [check_bind_eq_ok_iff, checkChain_iff, checkOriginalActor_iff,
        checkDelegatedVia_iff]
      constructor
      · rintro ⟨chain, actor, via⟩
        constructor <;> (rw [carried]; rintro _ ⟨⟩; assumption)
      · intro admitted
        exact ⟨admitted.chain delegation carried, admitted.actor delegation carried,
          admitted.via delegation carried⟩

/-- What a call on a server has passed when it is forwarded. -/
theorem resolveToolCallTarget_iff :
    resolveToolCallTarget texts state caller serverId toolName args = .ok client ↔
      enforceCallerGrant texts state.database caller serverId toolName args = .ok () ∧
        DelegationAdmitted state serverId toolName args ∧
          clientOf state.manager serverId = .ok client ∧
            validateCall texts toolName args = .ok () := by
  rw [resolveToolCallTarget]
  rw [check_bind_eq_ok_iff, check_bind_eq_ok_iff, checkDelegation_iff, bind_eq_ok_iff]
  simp only [check_bind_eq_ok_iff]
  constructor
  · rintro ⟨granted, admitted, found, here, validated, same⟩
    cases same
    exact ⟨granted, admitted, here, validated⟩
  · rintro ⟨granted, admitted, here, validated⟩
    exact ⟨granted, admitted, client, here, validated, rfl⟩

theorem routeTool_iff :
    routeTool texts state caller toolName args = .ok target ↔
      ∃ serverId client, state.manager.toolIndex toolName = some serverId ∧
        clientOf state.manager serverId = .ok client ∧
          enforceCallerGrant texts state.database caller serverId toolName args = .ok () ∧
            validateCall texts toolName args = .ok () ∧ target = .server serverId client := by
  rw [routeTool]
  cases state.manager.toolIndex toolName with
  | none => simp
  | some serverId =>
      rw [bind_eq_ok_iff]
      simp only [check_bind_eq_ok_iff, Option.some.injEq, exists_and_left, exists_eq_left']
      constructor
      · rintro ⟨client, here, granted, validated, same⟩
        cases same
        exact ⟨client, here, granted, validated, rfl⟩
      · rintro ⟨client, here, granted, validated, rfl⟩
        exact ⟨client, here, granted, validated, rfl⟩

/-- A call by name of a tool that the kernel does not answer is routed. -/
theorem executeToolInternal_of_notMem (apart : toolName ∉ kernelToolNames) :
    executeToolInternal texts state caller toolName args = .ok target ↔
      enforceKernelGate state caller toolName = .ok () ∧
        routeTool texts state caller toolName args = .ok target := by
  rw [executeToolInternal]
  simp only [check_bind_eq_ok_iff, if_neg apart]

/-- A call by name of a tool of the kernel is answered by the kernel. -/
theorem executeToolInternal_of_mem (mem : toolName ∈ kernelToolNames) :
    executeToolInternal texts state caller toolName args = .ok target ↔
      enforceKernelGate state caller toolName = .ok () ∧ target = .kernel toolName := by
  rw [executeToolInternal]
  rw [check_bind_eq_ok_iff, if_pos mem, Except.ok.injEq, @eq_comm _ target]

end Passed

/-! ## The two ways compared -/

/-- A call by name reaches the server: the kernel does not answer the name, lets
the caller use it where it is reserved, and routes it there. -/
structure RoutedTo (state : CallState) (caller : Caller) (serverId toolName : String) : Prop where
  notKernel : toolName ∉ kernelToolNames
  gate : enforceKernelGate state caller toolName = .ok ()
  index : state.manager.toolIndex toolName = some serverId

/-- A call that a named server gets met the rules of its delegation, and reaches
the same server by name exactly if its name is routed there; no call reaches a
server that its name is not routed to. -/
theorem resolved_agrees (texts : Texts) (state : CallState) (caller : Caller)
    (serverId toolName : String) (args : Value) (client : Nat)
    (resolved : resolveToolCallTarget texts state caller serverId toolName args = .ok client) :
    DelegationAdmitted state serverId toolName args ∧
      (executeToolInternal texts state caller toolName args = .ok (.server serverId client) ↔
        RoutedTo state caller serverId toolName) ∧
      ∀ otherId other, executeToolInternal texts state caller toolName args =
        .ok (.server otherId other) → state.manager.toolIndex toolName = some otherId := by
  rcases resolveToolCallTarget_iff.mp resolved with ⟨granted, admitted, here, validated⟩
  have routed (otherId : String) (other : Nat)
      (executed : executeToolInternal texts state caller toolName args =
        .ok (.server otherId other)) : RoutedTo state caller otherId toolName := by
    by_cases mem : toolName ∈ kernelToolNames
    · have answered := ((executeToolInternal_of_mem mem).mp executed).2
      cases answered
    · rcases (executeToolInternal_of_notMem mem).mp executed with ⟨gate, route⟩
      rcases routeTool_iff.mp route with ⟨_, _, index, _, _, _, same⟩
      cases same
      exact ⟨mem, gate, index⟩
  refine ⟨admitted, ⟨routed serverId client, ?_⟩, ?_⟩
  · intro route
    apply (executeToolInternal_of_notMem route.notKernel).mpr
    refine ⟨route.gate, ?_⟩
    exact routeTool_iff.mpr ⟨serverId, client, route.index, here, granted, validated, rfl⟩
  · intro otherId other executed
    exact (routed otherId other executed).index

/-! ## A tool that is not routed -/

/-- Every call that a named server gets is forwarded to it by name, and both ways
hold the rules of a delegation. -/
def SameGates : Prop :=
  ∀ (texts : Texts) (state : CallState) (caller : Caller) (serverId toolName : String)
    (args : Value) (client : Nat),
    (resolveToolCallTarget texts state caller serverId toolName args = .ok client →
      executeToolInternal texts state caller toolName args = .ok (.server serverId client)) ∧
    (resolveToolCallTarget texts state caller serverId toolName args = .ok client ∨
      executeToolInternal texts state caller toolName args = .ok (.server serverId client) →
        DelegationAdmitted state serverId toolName args)

/-- A connected server that lists tools without annotations. -/
def connectedHandle (id : String) (toolNames : List String) : McpServerHandle where
  config := { McpServerConfig.default with id, command := "node" }
  client := some 1
  tools := toolNames.map fun name => ⟨name, none⟩
  mgpNegotiated := none
  status := .connected
  isolationProfile := none

/-- A database with these rows and nothing else, in which no query fails. -/
def quietDatabase (rows : List AccessControlEntry) : Database where
  clock := stoppedClock
  policies := fun _ => none
  rows := rows
  ruleRows := []
  enabledAgents := ["agent.a"]
  fault := fun _ => none

/-- Texts whose values are never equal and are shown as nothing. -/
def plainTexts : Texts where
  same := fun _ _ => false
  display := fun _ => ""
  nfkc := id
  toLowercase := Encoding.toAsciiLowercase

/-- A server with one tool that an agent is granted. -/
def filesState : CallState where
  manager := Manager.empty.register (connectedHandle "files" ["read_file"]) none
  database := quietDatabase [toolGrant .allow]

/-- A call that an agent makes for itself. -/
def delegatedArgs : Value :=
  .object [("_mgp", .object [("delegation", .object
    [("original_actor", .string "agent.a"), ("delegated_via", .string "files")])])]

theorem resolved_agrees_files :
    DelegationAdmitted filesState "files" "read_file" delegatedArgs ∧
      (executeToolInternal plainTexts filesState (.agent "agent.a") "read_file" delegatedArgs =
          .ok (.server "files" 1) ↔
        RoutedTo filesState (.agent "agent.a") "files" "read_file") ∧
      ∀ otherId other, executeToolInternal plainTexts filesState (.agent "agent.a") "read_file"
          delegatedArgs = .ok (.server otherId other) →
        filesState.manager.toolIndex "read_file" = some otherId :=
  resolved_agrees plainTexts filesState (.agent "agent.a") "files" "read_file" delegatedArgs 1
    (by decide +kernel)

/-- A reasoning engine, whose tools are not routed. -/
def engineState : CallState where
  manager := Manager.empty.register (connectedHandle "engine" ["think"]) none
  database := quietDatabase []

/-- The engine gets a call that nothing gets by name. -/
theorem not_sameGates : ¬SameGates := by
  intro same
  have resolved : resolveToolCallTarget plainTexts engineState .system "engine" "think" .null =
      .ok 1 := by decide +kernel
  have executed := (same plainTexts engineState .system "engine" "think" .null 1).1 resolved
  have missing : engineState.manager.toolIndex "think" = none := by decide +kernel
  have routed := (executeToolInternal_of_notMem (by decide)).mp executed
  rcases routeTool_iff.mp routed.2 with ⟨serverId, client, index, _, _, _, _⟩
  rw [missing] at index
  contradiction

end ClotoCore.Mcp
