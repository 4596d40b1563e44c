import ClotoCore.Mcp.Connect

/-!
# How far a seal downgrade reaches

A stdio server whose seal does not verify is launched as untrusted.  The
negotiation that follows reads the configuration again, so the level stored on
the handle is untrusted only where the configuration, or else the server, says
so itself.
-/

namespace ClotoCore.Mcp

open ClotoCore.Approval

variable {kernel : Kernel} {world : Surroundings} {manager : Manager} {config : McpServerConfig}

/-- The seal of a stdio server is missing or not verified. -/
def SealUnverified (kernel : Kernel) (world : Surroundings) (config : McpServerConfig) : Prop :=
  config.isHttpTransport = false ∧
    (config.magicSeal = none ∨ sealStatus kernel world config ≠ .ok (some .verified))

/-- The level of everything the kernel keeps about a registered server and
computes for its tools. -/
structure UntrustedEverywhere (manager : Manager) (id : String) : Prop where
  isolation : ∀ handle, manager.servers id = some handle →
    ∀ profile, handle.isolationProfile = some profile → profile.trustLevel = .untrusted
  negotiation : ∀ handle, manager.servers id = some handle →
    ∀ mgp, handle.mgpNegotiated = some mgp → mgp.trustLevel = .untrusted
  toolSecurity : ∀ handle, manager.servers id = some handle →
    ∀ toolName security, Manager.securityOf handle toolName = some security →
      security.trustLevel = .untrusted ∧ security.effectiveRiskLevel = .dangerous
  riskLevel : ∀ toolName, manager.toolIndex toolName = some id →
    ∀ risk, manager.getToolRiskLevel toolName = some risk → risk = .dangerous

/-- What the server that answers is negotiated to: nothing at all, or the
untrusted level, by the configuration or else by the server's own word. -/
def NegotiatesUntrusted (kernel : Kernel) (world : Surroundings) (config : McpServerConfig) :
    Prop :=
  ∀ session, world.session = some session → ∀ serverCaps, session.mgpServerCaps = some serverCaps →
    negotiatedTrust kernel.crate config.configTrust serverCaps.trustLevel = .untrusted

/-! ## The launch -/

/-- Without a seal, nothing is verified. -/
theorem sealStatus_ne_verified (unsealed : config.magicSeal = none) :
    sealStatus kernel world config ≠ .ok (some .verified) := by
  intro verified
  rw [sealStatus, unsealed] at verified
  split at verified
  · rcases bind_eq_ok_iff.mp verified with ⟨key, -, checked⟩
    simp only [Option.filter_none] at checked
    cases outcome : kernel.crate.checkSeal (declaredTrustLevel kernel.crate config) none
        kernel.allowUnsigned with
    | error message => simp [outcome, Except.map] at checked
    | ok status =>
        simp only [outcome, Except.map, Except.ok.injEq, Option.some.injEq] at checked
        apply kernel.crate.missing (declaredTrustLevel kernel.crate config) kernel.allowUnsigned
        rw [outcome, checked]
  · cases verified

/-- The check is skipped for no server unless unsigned servers are allowed. -/
theorem sealStatus_ne_skipped (signedOnly : kernel.allowUnsigned = false) :
    sealStatus kernel world config ≠ .ok (some .skipped) := by
  intro skipped
  rw [sealStatus, signedOnly] at skipped
  split at skipped
  · rcases bind_eq_ok_iff.mp skipped with ⟨key, -, checked⟩
    split at checked
    · split at checked <;> simp at checked
    · cases outcome : kernel.crate.checkSeal (declaredTrustLevel kernel.crate config)
          config.magicSeal false with
      | error message => simp [outcome, Except.map] at checked
      | ok status =>
          simp only [outcome, Except.map, Except.ok.injEq, Option.some.injEq] at checked
          apply kernel.crate.skipped (declaredTrustLevel kernel.crate config) config.magicSeal
          rw [outcome, checked]
  · cases skipped

/-- A server whose seal does not verify is launched as untrusted or not at all. -/
theorem effectiveTrustLevel_of_unverified (signedOnly : kernel.allowUnsigned = false)
    (unverified : SealUnverified kernel world config) {level : TrustLevel}
    (effective : effectiveTrustLevel kernel world config = .ok level) : level = .untrusted := by
  rcases unverified with ⟨stdio, absent⟩
  have notVerified : sealStatus kernel world config ≠ .ok (some .verified) := by
    rcases absent with unsealed | refuted
    · exact sealStatus_ne_verified unsealed
    · exact refuted
  rw [effectiveTrustLevel, stdio, if_neg Bool.false_ne_true] at effective
  cases checked : sealStatus kernel world config with
  | error message => simp [checked] at effective
  | ok status =>
      simp only [checked] at effective
      cases status with
      | none =>
          simp only [judgeSeal, signedOnly, and_true, Except.ok.injEq] at effective
          by_cases declared : declaredTrustLevel kernel.crate config = .untrusted
          · rw [← effective, if_neg (not_not.mpr declared), declared]
          · rw [← effective, if_pos declared]
      | some status =>
          cases status with
          | verified => exact absurd checked notVerified
          | failed => simp [judgeSeal] at effective
          | unsigned =>
              simp only [judgeSeal, Except.ok.injEq] at effective
              by_cases declared : declaredTrustLevel kernel.crate config = .untrusted
              · rw [← effective, if_neg (not_not.mpr declared), declared]
              · rw [← effective, if_pos declared]
          | skipped => exact absurd checked (sealStatus_ne_skipped signedOnly)

/-- A profile is a profile of the level it was derived for. -/
theorem trustLevel_of_deriveIsolationProfile {level : TrustLevel} {permissions : List String}
    {overrides : Option IsolationConfig} {serverId sandboxBase : String}
    {profile : IsolationProfile}
    (derived : deriveIsolationProfile level permissions overrides serverId sandboxBase
      = .ok profile) : profile.trustLevel = level := by
  rcases bind_eq_ok_iff.mp derived with ⟨checked, -, rest⟩
  rcases bind_eq_ok_iff.mp rest with ⟨filesystem, -, rest⟩
  rcases bind_eq_ok_iff.mp rest with ⟨network, -, rest⟩
  cases rest
  rfl

theorem isolationProfile_eq_some {level : TrustLevel} {profile : IsolationProfile}
    (profileEq : isolationProfile kernel config level = some profile) :
    deriveIsolationProfile level config.requiredPermissions config.isolation config.id
      kernel.sandboxBaseDir = .ok profile := by
  rw [isolationProfile] at profileEq
  split at profileEq
  · contradiction
  · split at profileEq
    · split at profileEq
      · rename_i derived
        rw [derived, Option.some.inj profileEq]
      · contradiction
    · contradiction

/-- The profile of an admitted server whose seal does not verify. -/
theorem trustLevel_of_admission (signedOnly : kernel.allowUnsigned = false)
    (unverified : SealUnverified kernel world config) {existing : Option ServerStatus}
    {profile : IsolationProfile}
    (admitted : admission kernel world config existing = .ok (some profile)) :
    profile.trustLevel = .untrusted := by
  rcases admit_eq_ok_iff.mp admitted with ⟨-, level, effective, profileEq⟩
  rw [trustLevel_of_deriveIsolationProfile (isolationProfile_eq_some profileEq)]
  exact effectiveTrustLevel_of_unverified signedOnly unverified effective

/-! ## The handle -/

@[simp]
theorem Manager.register_servers_self (manager : Manager) (handle : McpServerHandle)
    (toolsForCapability : Option (List (String × List String))) :
    (manager.register handle toolsForCapability).servers handle.config.id = some handle :=
  Function.update_self ..

/-- A handle that negotiated the untrusted level or nothing is untrusted in
everything that is computed from it. -/
theorem securityOf_of_untrusted {handle : McpServerHandle}
    (untrusted : ∀ mgp, handle.mgpNegotiated = some mgp → mgp.trustLevel = .untrusted)
    {toolName : String} {security : ToolSecurityMetadata}
    (computed : Manager.securityOf handle toolName = some security) :
    security.trustLevel = .untrusted ∧ security.effectiveRiskLevel = .dangerous := by
  rcases trustLevel_of_computeToolSecurity computed with ⟨mgp, negotiated, levelEq, riskEq⟩
  rw [levelEq, riskEq, untrusted mgp negotiated]
  exact ⟨rfl, deriveEffectiveRiskLevel_untrusted _ _⟩

/-- For a registered server whose profile is untrusted, everything turns on
what was negotiated. -/
theorem untrustedEverywhere_of_handle {handle : McpServerHandle} {id : String}
    (here : manager.servers id = some handle)
    (isolated : ∀ profile, handle.isolationProfile = some profile →
      profile.trustLevel = .untrusted) :
    UntrustedEverywhere manager id ↔
      ∀ mgp, handle.mgpNegotiated = some mgp → mgp.trustLevel = .untrusted := by
  constructor
  · intro everywhere
    exact everywhere.negotiation handle here
  · intro untrusted
    constructor
    · intro other there
      rw [here] at there
      cases there
      exact isolated
    · intro other there
      rw [here] at there
      cases there
      exact untrusted
    · intro other there toolName security computed
      rw [here] at there
      cases there
      exact securityOf_of_untrusted untrusted computed
    · intro toolName routed risk known
      simp only [Manager.getToolRiskLevel, routed, here, Option.bind_some,
        Option.map_eq_some_iff] at known
      rcases known with ⟨security, computed, rfl⟩
      exact (securityOf_of_untrusted untrusted computed).2

/-- What the handle negotiated, for the session that registered. -/
theorem negotiated_iff {session : Session} (answered : world.session = some session) :
    (∀ mgp, session.negotiated kernel config = some mgp → mgp.trustLevel = .untrusted) ↔
      NegotiatesUntrusted kernel world config := by
  simp only [NegotiatesUntrusted, answered, Option.some.injEq, forall_eq', Session.negotiated,
    negotiate, Option.map_eq_some_iff]
  constructor
  · intro untrusted serverCaps given
    exact untrusted _ ⟨serverCaps, given, rfl⟩
  · rintro untrusted mgp ⟨serverCaps, given, rfl⟩
    exact untrusted serverCaps given

/-- A stdio server whose seal is missing or does not verify runs under the
untrusted profile, whatever becomes of the call.  Once it is registered it is
untrusted everywhere exactly where the negotiation came to that level. -/
theorem untrustedEverywhere_iff (kernel : Kernel) (world : Surroundings) (manager : Manager)
    (config : McpServerConfig) (signedOnly : kernel.allowUnsigned = false)
    (unverified : SealUnverified kernel world config) :
    (∀ child ∈ (connectServer kernel world manager config).children,
      ∀ profile, child.isolation = some profile → profile.trustLevel = .untrusted) ∧
    ∀ names, (connectServer kernel world manager config).result = .ok names →
      (UntrustedEverywhere (connectServer kernel world manager config).manager config.id ↔
        NegotiatesUntrusted kernel world config) := by
  constructor
  · intro child mem profile isolated
    rcases mem_children mem with ⟨-, admittedProfile, admitted, rfl⟩
    cases isolated
    exact trustLevel_of_admission signedOnly unverified admitted
  · intro names returned
    rcases connectServer_of_ok returned with ⟨profile, session, admitted, established, managerEq⟩
    rw [managerEq, ← negotiated_iff (session_of_establish established)]
    apply untrustedEverywhere_of_handle
      (Manager.register_servers_self _ (session.handle kernel config profile) _)
    intro other isolated
    cases isolated
    exact trustLevel_of_admission signedOnly unverified admitted

/-! ## An unsealed server that is declared core -/

/-- The four names of the levels. -/
def levelNamed : String → Option TrustLevel
  | "untrusted" => some .untrusted
  | "experimental" => some .experimental
  | "standard" => some .standard
  | "core" => some .core
  | _ => none

/-- A crate under which no seal matches. -/
def strictCrate : MgpSeal where
  fromStrLossy := fun text => (levelNamed text).getD .untrusted
  parse := levelNamed
  checkSeal := fun _ value allowUnsigned =>
    if allowUnsigned then .ok .skipped else .ok (if value.isSome then .failed else .unsigned)
  missing := by
    intro declared allowUnsigned
    cases allowUnsigned <;> simp
  skipped := by
    intro declared value
    cases value <;> simp

/-- A kernel that isolates its servers and allows no unsigned one. -/
def strictKernel : Kernel where
  crate := strictCrate
  sha256 := fun message => message
  allowUnsigned := false
  isolationEnabled := true
  sandboxBaseDir := "/data/sandbox"
  yoloExceptions := []
  envVar := fun _ => none

/-- An operator who has approved nothing. -/
def nothingApproved : PermissionBoard where
  yoloMode := false
  isPermissionApproved := fun _ => false

/-- A script that is there, and a server that answers the first attempt. -/
def answering (session : Session) : Surroundings where
  manifestRefusal := none
  permissionGate := nothingApproved
  entryPointExists := true
  sealKey := .ok []
  installRoot := none
  attempt := fun _ => .connected session
  permissionFlow := nothingApproved

/-- A server of one tool that speaks the security extension. -/
def readerSession : Session where
  client := 0
  protocolEra := .modern
  mgpServerCaps := some
    { extensions := ["tool_security"]
      trustLevel := none
      permissionsRequired := []
      toolsForCapability := none }
  initializedNotification := .ok ()
  listTools := .ok [⟨"read_file", none⟩]

/-- A script without a seal that the configuration calls core. -/
def unsealedCore : McpServerConfig :=
  { McpServerConfig.default with
    id := "reader"
    command := "python"
    args := ["/data/mcp-servers/reader/server.py"]
    mgp := some ⟨some "core"⟩ }

/-- A downgrade reaches everything: the statement that a core server without a
seal refutes. -/
def DowngradeReachesEverything : Prop :=
  ∀ (kernel : Kernel) (world : Surroundings) (manager : Manager) (config : McpServerConfig)
    (names : List String), kernel.allowUnsigned = false → SealUnverified kernel world config →
      (connectServer kernel world manager config).result = .ok names →
        UntrustedEverywhere (connectServer kernel world manager config).manager config.id

/-- The tool of the unsealed server is safe. -/
theorem not_downgradeReachesEverything : ¬DowngradeReachesEverything := by
  intro reaches
  have everywhere := reaches strictKernel (answering readerSession) .empty unsealedCore
    ["read_file"] rfl ⟨by decide, .inl rfl⟩ (by decide +kernel)
  have safe : (connectServer strictKernel (answering readerSession) .empty
      unsealedCore).manager.getToolRiskLevel "read_file" = some .safe := by decide +kernel
  have routed : (connectServer strictKernel (answering readerSession) .empty
      unsealedCore).manager.toolIndex "read_file" = some "reader" := by decide +kernel
  cases everywhere.riskLevel "read_file" routed .safe safe

theorem untrustedEverywhere_iff_unsealedCore :
    (∀ child ∈ (connectServer strictKernel (answering readerSession) .empty unsealedCore).children,
      ∀ profile, child.isolation = some profile → profile.trustLevel = .untrusted) ∧
    ∀ names, (connectServer strictKernel (answering readerSession) .empty unsealedCore).result =
        .ok names →
      (UntrustedEverywhere
          (connectServer strictKernel (answering readerSession) .empty unsealedCore).manager
          "reader" ↔
        NegotiatesUntrusted strictKernel (answering readerSession) unsealedCore) :=
  untrustedEverywhere_iff strictKernel (answering readerSession) .empty unsealedCore rfl
    ⟨by decide, .inl rfl⟩

end ClotoCore.Mcp
