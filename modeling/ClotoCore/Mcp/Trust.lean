import ClotoCore.Mcp.Config

/-!
# Which trust level the kernel believes

The crate `mgp_seal` names the trust levels and checks an entry point's seal.
Two readings of the same configuration meet here: the exact one that the launch
starts from, and the lossy one that the negotiation makes.
-/

namespace ClotoCore.Mcp

open ClotoCore.Approval

/-- `SealStatus` of `mgp_seal`. -/
inductive SealStatus where
  | verified
  | failed
  | unsigned
  | skipped
  deriving DecidableEq

/-- What the kernel calls of the crate `mgp_seal`, and what it relies on. -/
structure MgpSeal where
  /-- `TrustLevel::from_str_lossy` -/
  fromStrLossy : String → TrustLevel
  /-- The serde representation of a level. -/
  parse : String → Option TrustLevel
  /-- `check_seal` of a declared level and a seal, on the entry point at hand;
  the last argument is `allow_unsigned`. -/
  checkSeal : TrustLevel → Option String → Bool → Except String SealStatus
  /-- Where no seal is given, none is verified. -/
  missing : ∀ declared allowUnsigned, checkSeal declared none allowUnsigned ≠ .ok .verified
  /-- The check is skipped only where unsigned servers are allowed. -/
  skipped : ∀ declared value, checkSeal declared value false ≠ .ok .skipped

/-- `MgpServerCapabilities`: what a server says of itself. -/
structure MgpServerCapabilities where
  extensions : List String
  trustLevel : Option String
  permissionsRequired : List String
  toolsForCapability : Option (List (String × List String))

/-- `CLIENT_EXTENSIONS` -/
def clientExtensions : List String :=
  ["tool_security", "permissions", "access_control", "audit", "code_safety", "error_handling",
    "lifecycle", "streaming", "progress", "events", "callbacks", "discovery", "tool_discovery",
    "delegation", "agent_token"]

/-- The declared level that `connect_server` starts from: a level it cannot
parse counts as no level. -/
def declaredTrustLevel (crate : MgpSeal) (config : McpServerConfig) : TrustLevel :=
  (config.configTrust.bind crate.parse).getD .standard

/-- The level that `negotiate` settles on: the configuration's, else the
server's own. -/
def negotiatedTrust (crate : MgpSeal) (configTrust serverTrust : Option String) : TrustLevel :=
  match configTrust with
  | some level => crate.fromStrLossy level
  | none =>
      match serverTrust with
      | some level => crate.fromStrLossy level
      | none => .untrusted

/-- `negotiate` -/
def negotiate (crate : MgpSeal) (serverCaps : Option MgpServerCapabilities)
    (configTrust : Option String) : Option NegotiatedMgp :=
  serverCaps.map fun server =>
    { activeExtensions := clientExtensions.filter server.extensions.contains
      trustLevel := negotiatedTrust crate configTrust server.trustLevel }

/-- `ToolSecurityMetadata` -/
structure ToolSecurityMetadata where
  effectiveRiskLevel : RiskLevel
  trustLevel : TrustLevel
  validator : Option String

/-- `compute_tool_security`: nothing where the extension is not active. -/
def computeToolSecurity (mgpNegotiated : Option NegotiatedMgp) (requiredPermissions : List String)
    (toolName : String) : Option ToolSecurityMetadata :=
  match mgpNegotiated with
  | none => none
  | some mgp =>
      if mgp.activeExtensions.contains "tool_security" then
        let validator := getKernelValidator toolName
        some
          { effectiveRiskLevel :=
              deriveEffectiveRiskLevel mgp.trustLevel validator (permissionRisk requiredPermissions)
            trustLevel := mgp.trustLevel
            validator }
      else none

/-! ## What a level means for a tool -/

@[simp]
theorem RiskLevel.max_dangerous (risk : RiskLevel) : RiskLevel.dangerous.max risk = .dangerous := by
  cases risk <;> rfl

/-- The tools of an untrusted server are dangerous, whatever they are. -/
theorem deriveEffectiveRiskLevel_untrusted (validator : Option String) (permissions : RiskLevel) :
    deriveEffectiveRiskLevel .untrusted validator permissions = .dangerous := by
  simp [deriveEffectiveRiskLevel, TrustLevel.risk]

/-- The security of a tool repeats the negotiated level. -/
theorem trustLevel_of_computeToolSecurity {mgpNegotiated : Option NegotiatedMgp}
    {requiredPermissions : List String} {toolName : String} {security : ToolSecurityMetadata}
    (computed : computeToolSecurity mgpNegotiated requiredPermissions toolName = some security) :
    ∃ mgp, mgpNegotiated = some mgp ∧ security.trustLevel = mgp.trustLevel ∧
      security.effectiveRiskLevel =
        deriveEffectiveRiskLevel mgp.trustLevel (getKernelValidator toolName)
          (permissionRisk requiredPermissions) := by
  cases mgpNegotiated with
  | none => simp [computeToolSecurity] at computed
  | some mgp =>
      rw [computeToolSecurity] at computed
      split at computed
      · cases computed
        exact ⟨mgp, rfl, rfl, rfl⟩
      · contradiction

end ClotoCore.Mcp
