import ClotoCore.Json.Value

/-!
# How the kernel classifies a tool

The approval gate asks three questions about a tool: whether the kernel routes it
to a validator, which risk level its server negotiated, and what its annotations
say.  Whatever cannot be found is destructive.
-/

namespace ClotoCore.Approval

/-- `TrustLevel` of a server. -/
inductive TrustLevel where
  | untrusted
  | experimental
  | standard
  | core
  deriving DecidableEq

/-- `RiskLevel`, from harmless to harmful. -/
inductive RiskLevel where
  | safe
  | moderate
  | dangerous
  deriving DecidableEq

/-- The order of risk levels. -/
def RiskLevel.rank : RiskLevel → Nat
  | .safe => 0
  | .moderate => 1
  | .dangerous => 2

/-- `Ord::max` of two risk levels. -/
def RiskLevel.max (first second : RiskLevel) : RiskLevel :=
  if first.rank ≤ second.rank then second else first

/-- `PermissionRiskClass::from_permissions`. -/
def permissionRisk (permissions : List String) : RiskLevel :=
  if permissions.any fun permission => ["shell.execute", "code_execution"].contains permission then
    .dangerous
  else if permissions.any fun permission => ["filesystem.write"].contains permission then .moderate
  else .safe

/-- The risk that a trust level stands for. -/
def TrustLevel.risk : TrustLevel → RiskLevel
  | .core => .safe
  | .standard => .moderate
  | .experimental | .untrusted => .dangerous

/-- The risk that a kernel validator stands for. -/
def validatorRisk : Option String → RiskLevel
  | some "sandbox" | some "network_restricted" | some "code_safety" => .moderate
  | some "none" => .dangerous
  | _ => .safe

/-- `derive_effective_risk_level`. -/
def deriveEffectiveRiskLevel (trust : TrustLevel) (validator : Option String)
    (permissions : RiskLevel) : RiskLevel :=
  (trust.risk.max (validatorRisk validator)).max permissions

/-- `KERNEL_TOOL_VALIDATORS`. -/
def kernelToolValidators : List (String × String) :=
  [("execute_command", "sandbox")]

/-- `get_kernel_validator`. -/
def getKernelValidator (toolName : String) : Option String :=
  kernelToolValidators.lookup toolName

/-- A tool that a server lists. -/
structure McpTool where
  name : String
  annotations : Option Json.Value

/-- `NegotiatedMgp`. -/
structure NegotiatedMgp where
  activeExtensions : List String
  trustLevel : TrustLevel

/-- What the gate reads of an `McpServerHandle`. -/
structure McpServerHandle where
  mgpNegotiated : Option NegotiatedMgp
  requiredPermissions : List String
  tools : List McpTool

/-- `McpClientManager`: which server owns a tool name, and the servers by id. -/
structure McpClientManager where
  toolIndex : List (String × String)
  servers : List (String × McpServerHandle)

namespace McpClientManager

/-- `get_tool_validator`. -/
def getToolValidator (_manager : McpClientManager) (toolName : String) : Option String :=
  getKernelValidator toolName

/-- The server that a tool name is routed to. -/
def handleOf (manager : McpClientManager) (toolName : String) : Option McpServerHandle :=
  (manager.toolIndex.lookup toolName).bind fun serverId => manager.servers.lookup serverId

/-- `compute_tool_security`, as far as the gate reads it. -/
def computeToolSecurity (handle : McpServerHandle) (toolName : String) : Option RiskLevel :=
  match handle.mgpNegotiated with
  | none => none
  | some mgp =>
      if mgp.activeExtensions.contains "tool_security" then
        some <| deriveEffectiveRiskLevel mgp.trustLevel (getKernelValidator toolName)
          (permissionRisk handle.requiredPermissions)
      else none

/-- `get_tool_risk_level`. -/
def getToolRiskLevel (manager : McpClientManager) (toolName : String) : Option RiskLevel :=
  (manager.handleOf toolName).bind fun handle => computeToolSecurity handle toolName

/-- `is_kernel_native_tool`. -/
def isKernelNativeTool (toolName : String) : Bool :=
  "mgp.".toList.isPrefixOf toolName.toList || "gui.".toList.isPrefixOf toolName.toList

/-- `is_tool_destructive`. -/
def isToolDestructive (manager : McpClientManager) (toolName : String) : Bool :=
  match manager.handleOf toolName with
  | none => true
  | some handle =>
      match handle.tools.find? fun tool => tool.name = toolName with
      | none => true
      | some tool =>
          match tool.annotations with
          | none => true
          | some annotations =>
              if ((annotations.get "readOnlyHint").bind Json.Value.asBool).getD false then false
              else ((annotations.get "destructiveHint").bind Json.Value.asBool).getD true

end McpClientManager

end ClotoCore.Approval
