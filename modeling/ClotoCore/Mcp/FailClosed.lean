import ClotoCore.Mcp.SealDowngrade

/-!
# Whether isolation fails closed

A derived profile stays within what its trust level allows.  A profile that
cannot be derived, because the level does not admit what the operator overrides,
is replaced by none at all, and the child is started all the same.
-/

namespace ClotoCore.Mcp

open ClotoCore.Approval

/-! ## What a level allows -/

/-- The scope that a level allows the file system to have. -/
def filesystemCeiling (level : TrustLevel) : FilesystemScope :=
  (defaultsFor level).filesystem

/-- The scope that a level allows the network to have: the permission for
outbound connections opens the proxy to an untrusted server. -/
def networkCeiling (level : TrustLevel) (permissions : List String) : NetworkScope :=
  if level = .untrusted ∧ "network.outbound" ∈ permissions then .proxyOnly
  else (defaultsFor level).network

/-- The limit that a level allows, `none` where it sets none.  The operator's
own limit takes the place of a standard server's, and an experimental server's
can be raised to that of a standard one. -/
def limitCeiling (level : TrustLevel) (limit : TrustLevel → Option Nat) (override : Option Nat) :
    Option Nat :=
  match level with
  | .core => none
  | .standard => override <|> limit .standard
  | .experimental => if override.isSome then limit .standard else limit .experimental
  | .untrusted => limit .untrusted

/-- A limit is at most another; having none is the largest. -/
def LimitWithin (limit ceiling : Option Nat) : Prop :=
  ∀ bound, ceiling = some bound → ∃ actual, limit = some actual ∧ actual ≤ bound

/-- A profile is within what its level allows. -/
structure IsolationProfile.Within (profile : IsolationProfile) (permissions : List String)
    (overrides : IsolationConfig) : Prop where
  filesystem : profile.filesystemScope.rank ≤ (filesystemCeiling profile.trustLevel).rank
  network : profile.networkScope.rank ≤ (networkCeiling profile.trustLevel permissions).rank
  memory : LimitWithin profile.memoryLimitMb
    (limitCeiling profile.trustLevel (fun level => (defaultsFor level).memoryLimitMb)
      overrides.memoryLimitMb)
  processes : LimitWithin profile.maxChildProcesses
    (limitCeiling profile.trustLevel (fun level => (defaultsFor level).maxChildProcesses)
      overrides.maxChildProcesses)

/-- An overridden scope has a name, and one that only a core server may open is
not left open. -/
structure ScopesAdmitted (level : TrustLevel) (overrides : IsolationConfig) : Prop where
  filesystem : ∀ text, overrides.filesystemScope = some text →
    ∃ scope, FilesystemScope.parse text = .ok scope ∧ (level ≠ .core → scope ≠ .unrestricted)
  network : ∀ text, overrides.networkScope = some text →
    ∃ scope, NetworkScope.parse text = .ok scope ∧ (level ≠ .core → scope ≠ .unrestricted)

/-- What a level admits the operator to override. -/
def OverridesAdmitted (level : TrustLevel) (overrides : IsolationConfig) : Prop :=
  match level with
  | .core | .standard => ScopesAdmitted level overrides
  | .experimental =>
      ScopesAdmitted level overrides ∧
        (∀ mem, overrides.memoryLimitMb = some mem → mem ≤ 512) ∧
        ∀ procs, overrides.maxChildProcesses = some procs → procs ≤ 5
  | .untrusted => overrides = .none

/-! ## The checks of the overrides -/

theorem ensure_eq_ok_iff {condition : Bool} {message : String} :
    ensure condition message = .ok () ↔ condition = true := by
  cases condition <;> simp [ensure]

theorem checkLimit_eq_ok_iff {override : Option Nat} {bound : Nat} {message : Nat → String} :
    checkLimit override bound message = .ok () ↔
      ∀ requested, override = some requested → requested ≤ bound := by
  cases override with
  | none => simp [checkLimit]
  | some requested => simp [checkLimit, ensure_eq_ok_iff]

theorem checkFilesystem_eq_ok_iff {level : String} {override : Option String} :
    checkFilesystem level override = .ok () ↔
      ∀ text, override = some text →
        ∃ scope, FilesystemScope.parse text = .ok scope ∧ scope ≠ .unrestricted := by
  cases override with
  | none => simp [checkFilesystem]
  | some text =>
      simp only [checkFilesystem, bind_eq_ok_iff, ensure_eq_ok_iff, bne_iff_ne, Option.some.injEq,
        forall_eq']

theorem checkNetwork_eq_ok_iff {level : String} {override : Option String} :
    checkNetwork level override = .ok () ↔
      ∀ text, override = some text →
        ∃ scope, NetworkScope.parse text = .ok scope ∧ scope ≠ .unrestricted := by
  cases override with
  | none => simp [checkNetwork]
  | some text =>
      simp only [checkNetwork, bind_eq_ok_iff, ensure_eq_ok_iff, bne_iff_ne, Option.some.injEq,
        forall_eq']

/-- The two scope checks of a level below core. -/
theorem scopesAdmitted_iff {level : TrustLevel} (below : level ≠ .core) (name : String)
    {overrides : IsolationConfig} :
    ScopesAdmitted level overrides ↔
      checkFilesystem name overrides.filesystemScope = .ok () ∧
        checkNetwork name overrides.networkScope = .ok () := by
  rw [checkFilesystem_eq_ok_iff, checkNetwork_eq_ok_iff]
  constructor
  · rintro ⟨filesystem, network⟩
    simp only [below, ne_eq, not_false_eq_true, true_implies] at filesystem network
    exact ⟨filesystem, network⟩
  · rintro ⟨filesystem, network⟩
    constructor
    · intro text given
      rcases filesystem text given with ⟨scope, parsed, closed⟩
      exact ⟨scope, parsed, fun _ => closed⟩
    · intro text given
      rcases network text given with ⟨scope, parsed, closed⟩
      exact ⟨scope, parsed, fun _ => closed⟩

/-- The overridden scopes all have names. -/
def ScopesParse (overrides : IsolationConfig) : Prop :=
  (∀ text, overrides.filesystemScope = some text →
    ∃ scope, FilesystemScope.parse text = .ok scope) ∧
    ∀ text, overrides.networkScope = some text → ∃ scope, NetworkScope.parse text = .ok scope

theorem ScopesAdmitted.parse {level : TrustLevel} {overrides : IsolationConfig}
    (admitted : ScopesAdmitted level overrides) : ScopesParse overrides := by
  constructor
  · intro text given
    rcases admitted.filesystem text given with ⟨scope, parsed, -⟩
    exact ⟨scope, parsed⟩
  · intro text given
    rcases admitted.network text given with ⟨scope, parsed, -⟩
    exact ⟨scope, parsed⟩

theorem untrusted_check_iff {overrides : IsolationConfig} :
    validateOverrides .untrusted overrides = .ok () ↔ overrides = .none := by
  rcases overrides with ⟨memory, cpu, filesystem, network, processes⟩
  simp only [validateOverrides, ensure_eq_ok_iff, Bool.not_eq_true', Bool.or_eq_false_iff,
    Option.isSome_eq_false_iff, Option.isNone_iff_eq_none, IsolationConfig.none,
    IsolationConfig.mk.injEq]
  tauto

/-- The overrides that a level admits are those that pass its check and whose
scopes have names. -/
theorem overridesAdmitted_iff {level : TrustLevel} {overrides : IsolationConfig} :
    OverridesAdmitted level overrides ↔
      validateOverrides level overrides = .ok () ∧ ScopesParse overrides := by
  cases level with
  | core =>
      simp only [OverridesAdmitted, validateOverrides, true_and]
      constructor
      · exact ScopesAdmitted.parse
      · rintro ⟨filesystem, network⟩
        constructor
        · intro text given
          rcases filesystem text given with ⟨scope, parsed⟩
          exact ⟨scope, parsed, fun below => absurd rfl below⟩
        · intro text given
          rcases network text given with ⟨scope, parsed⟩
          exact ⟨scope, parsed, fun below => absurd rfl below⟩
  | standard =>
      simp only [OverridesAdmitted, validateOverrides, bind_eq_ok_iff]
      constructor
      · intro admitted
        rcases (scopesAdmitted_iff (by decide) "Standard").mp admitted with ⟨filesystem, network⟩
        exact ⟨⟨(), filesystem, network⟩, admitted.parse⟩
      · rintro ⟨⟨checked, filesystem, network⟩, -⟩
        exact (scopesAdmitted_iff (by decide) "Standard").mpr ⟨filesystem, network⟩
  | experimental =>
      simp only [OverridesAdmitted, validateOverrides, bind_eq_ok_iff]
      constructor
      · rintro ⟨admitted, memory, processes⟩
        rcases (scopesAdmitted_iff (by decide) "Experimental").mp admitted with
          ⟨filesystem, network⟩
        exact ⟨⟨(), checkLimit_eq_ok_iff.mpr memory, (), checkLimit_eq_ok_iff.mpr processes, (),
          filesystem, network⟩, admitted.parse⟩
      · rintro ⟨⟨first, memory, second, processes, third, filesystem, network⟩, -⟩
        exact ⟨(scopesAdmitted_iff (by decide) "Experimental").mpr ⟨filesystem, network⟩,
          checkLimit_eq_ok_iff.mp memory, checkLimit_eq_ok_iff.mp processes⟩
  | untrusted =>
      rw [untrusted_check_iff]
      constructor
      · rintro rfl
        refine ⟨rfl, ?_, ?_⟩ <;> simp [IsolationConfig.none]
      · exact And.left

/-! ## The upgrades -/

/-- No permission widens a file system that is at least a sandbox. -/
theorem applyPermissionUpgrades_filesystem {permissions : List String}
    {scopes : FilesystemScope × NetworkScope}
    (wide : FilesystemScope.sandbox.rank ≤ scopes.1.rank) :
    (applyPermissionUpgrades permissions scopes).1 = scopes.1 := by
  induction permissions generalizing scopes with
  | nil => rfl
  | cons permission rest ih =>
      have unchanged : (applyPermissionUpgrade scopes permission).1 = scopes.1 := by
        simp only [FilesystemScope.rank] at wide
        rw [applyPermissionUpgrade]
        split
        · rfl
        · rw [if_neg, if_neg]
          · simp only [FilesystemScope.rank]
            omega
          · simp only [FilesystemScope.rank]
            omega
      calc
        (applyPermissionUpgrades (permission :: rest) scopes).1
            = (applyPermissionUpgrades rest (applyPermissionUpgrade scopes permission)).1 := rfl
        _ = (applyPermissionUpgrade scopes permission).1 := ih (by rw [unchanged]; exact wide)
        _ = scopes.1 := unchanged

/-- Only the permission for outbound connections widens the network, and only
up to the proxy. -/
theorem applyPermissionUpgrades_network {permissions : List String}
    {scopes : FilesystemScope × NetworkScope} :
    (applyPermissionUpgrades permissions scopes).2 =
      if "network.outbound" ∈ permissions ∧ scopes.2.rank < NetworkScope.proxyOnly.rank then
        .proxyOnly
      else scopes.2 := by
  induction permissions generalizing scopes with
  | nil => simp [applyPermissionUpgrades]
  | cons permission rest ih =>
      have unfolded : applyPermissionUpgrades (permission :: rest) scopes =
          applyPermissionUpgrades rest (applyPermissionUpgrade scopes permission) := rfl
      rw [unfolded, ih, applyPermissionUpgrade]
      by_cases outbound : permission = "network.outbound"
      · by_cases narrow : scopes.2.rank < NetworkScope.proxyOnly.rank
        · simp [outbound, narrow]
        · simp [outbound, narrow]
      · have elsewhere : "network.outbound" ≠ permission := fun same => outbound same.symm
        simp only [outbound, false_and, if_false, List.mem_cons, elsewhere, false_or]
        split
        · rfl
        · split <;> rfl

/-! ## The derivation -/

theorem overriddenFilesystem_eq_ok_iff {scope result : FilesystemScope} {override : Option String} :
    overriddenFilesystem scope override = .ok result ↔
      (override = none ∧ result = scope) ∨
        ∃ text, override = some text ∧ FilesystemScope.parse text = .ok result := by
  cases override with
  | none => simp [overriddenFilesystem, eq_comm]
  | some text => simp [overriddenFilesystem]

theorem overriddenNetwork_eq_ok_iff {scope result : NetworkScope} {override : Option String} :
    overriddenNetwork scope override = .ok result ↔
      (override = none ∧ result = scope) ∨
        ∃ text, override = some text ∧ NetworkScope.parse text = .ok result := by
  cases override with
  | none => simp [overriddenNetwork, eq_comm]
  | some text => simp [overriddenNetwork]

section Derivation

variable {level : TrustLevel} {permissions : List String} {overrides : Option IsolationConfig}
  {serverId sandboxBase : String} {profile : IsolationProfile}

/-- A profile is derived exactly where the level admits the overrides. -/
theorem deriveIsolationProfile_isOk_iff :
    (∃ profile, deriveIsolationProfile level permissions overrides serverId sandboxBase =
        .ok profile) ↔
      OverridesAdmitted level (overrides.getD .none) := by
  rw [overridesAdmitted_iff]
  constructor
  · rintro ⟨profile, derived⟩
    rcases bind_eq_ok_iff.mp derived with ⟨checked, valid, rest⟩
    rcases bind_eq_ok_iff.mp rest with ⟨filesystem, filesystemEq, rest⟩
    rcases bind_eq_ok_iff.mp rest with ⟨network, networkEq, rest⟩
    constructor
    · exact valid
    · constructor
      · intro text given
        rw [given] at filesystemEq
        exact ⟨filesystem, filesystemEq⟩
      · intro text given
        rw [given] at networkEq
        exact ⟨network, networkEq⟩
  · rintro ⟨valid, filesystems, networks⟩
    have filesystemOk (scope : FilesystemScope) :
        ∃ result, overriddenFilesystem scope (overrides.getD .none).filesystemScope =
          .ok result := by
      cases given : (overrides.getD .none).filesystemScope with
      | none => exact ⟨scope, rfl⟩
      | some text => exact filesystems text given
    have networkOk (scope : NetworkScope) :
        ∃ result, overriddenNetwork scope (overrides.getD .none).networkScope = .ok result := by
      cases given : (overrides.getD .none).networkScope with
      | none => exact ⟨scope, rfl⟩
      | some text => exact networks text given
    rcases filesystemOk (applyPermissionUpgrades permissions
      ((defaultsFor level).filesystem, (defaultsFor level).network)).1 with
      ⟨filesystem, filesystemEq⟩
    rcases networkOk (applyPermissionUpgrades permissions
      ((defaultsFor level).filesystem, (defaultsFor level).network)).2 with ⟨network, networkEq⟩
    simp only [deriveIsolationProfile, bind_eq_ok_iff]
    exact ⟨_, (), valid, filesystem, filesystemEq, network, networkEq, rfl⟩

theorem rank_le_filesystemCeiling {scope : FilesystemScope}
    (closed : level ≠ .core → scope ≠ .unrestricted) :
    scope.rank ≤ (filesystemCeiling level).rank := by
  cases level with
  | core => cases scope <;> decide
  | standard | experimental | untrusted =>
      have shut := closed (by decide)
      cases scope with
      | unrestricted => exact absurd rfl shut
      | sandbox | readonly | none => decide

/-- A limit that the operator may set on this level is within its ceiling. -/
theorem limitWithin_ceiling {limit : TrustLevel → Option Nat} {override : Option Nat}
    (raised : level = .experimental → ∀ requested, override = some requested →
      ∀ bound, limit .standard = some bound → requested ≤ bound)
    (kept : level = .untrusted → override = none) :
    LimitWithin (override <|> limit level) (limitCeiling level limit override) := by
  intro bound ceilingEq
  cases level with
  | core => simp [limitCeiling] at ceilingEq
  | standard => exact ⟨bound, ceilingEq, Nat.le_refl bound⟩
  | experimental =>
      cases override with
      | none => exact ⟨bound, by simpa [limitCeiling] using ceilingEq, Nat.le_refl bound⟩
      | some requested =>
          exact ⟨requested, rfl,
            raised rfl requested rfl bound (by simpa [limitCeiling] using ceilingEq)⟩
  | untrusted =>
      rw [kept rfl] at ceilingEq ⊢
      exact ⟨bound, ceilingEq, Nat.le_refl bound⟩

/-- The defaults of a level after the upgrades are its ceilings. -/
theorem applyPermissionUpgrades_defaults :
    applyPermissionUpgrades permissions ((defaultsFor level).filesystem,
      (defaultsFor level).network)
      = (filesystemCeiling level, networkCeiling level permissions) := by
  apply Prod.ext
  · apply applyPermissionUpgrades_filesystem
    cases level <;> decide
  · rw [applyPermissionUpgrades_network, networkCeiling]
    cases level <;> simp [defaultsFor, NetworkScope.rank]

/-- What a profile is made of. -/
theorem parts_of_deriveIsolationProfile
    (derived : deriveIsolationProfile level permissions overrides serverId sandboxBase
      = .ok profile) :
    overriddenFilesystem (filesystemCeiling level) (overrides.getD .none).filesystemScope =
        .ok profile.filesystemScope ∧
      overriddenNetwork (networkCeiling level permissions) (overrides.getD .none).networkScope =
        .ok profile.networkScope ∧
      profile.trustLevel = level ∧
      profile.memoryLimitMb =
        ((overrides.getD .none).memoryLimitMb <|> (defaultsFor level).memoryLimitMb) ∧
      profile.maxChildProcesses =
        ((overrides.getD .none).maxChildProcesses <|> (defaultsFor level).maxChildProcesses) := by
  simp only [deriveIsolationProfile, applyPermissionUpgrades_defaults, bind_eq_ok_iff] at derived
  rcases derived with ⟨checked, -, filesystem, filesystemEq, network, networkEq, same⟩
  cases same
  exact ⟨filesystemEq, networkEq, rfl, rfl, rfl⟩

/-- Below core, an admitted scope is a closed one. -/
theorem filesystem_within (admitted : ScopesAdmitted level (overrides.getD .none))
    {scope : FilesystemScope}
    (overridden : overriddenFilesystem (filesystemCeiling level)
      (overrides.getD .none).filesystemScope = .ok scope) :
    scope.rank ≤ (filesystemCeiling level).rank := by
  rcases overriddenFilesystem_eq_ok_iff.mp overridden with ⟨-, rfl⟩ | ⟨text, given, parsed⟩
  · exact Nat.le_refl _
  · apply rank_le_filesystemCeiling
    rcases admitted.filesystem text given with ⟨named, namedEq, closed⟩
    rw [parsed] at namedEq
    cases namedEq
    exact closed

theorem network_within (admitted : ScopesAdmitted level (overrides.getD .none))
    (above : level ≠ .untrusted) {scope : NetworkScope}
    (overridden : overriddenNetwork (networkCeiling level permissions)
      (overrides.getD .none).networkScope = .ok scope) :
    scope.rank ≤ (networkCeiling level permissions).rank := by
  rcases overriddenNetwork_eq_ok_iff.mp overridden with ⟨-, rfl⟩ | ⟨text, given, parsed⟩
  · exact Nat.le_refl _
  · rcases admitted.network text given with ⟨named, namedEq, closed⟩
    rw [parsed] at namedEq
    cases namedEq
    rw [networkCeiling, if_neg fun both => above both.1]
    cases level with
    | core => cases scope <;> decide
    | standard | experimental =>
        have shut := closed (by decide)
        cases scope with
        | unrestricted => exact absurd rfl shut
        | proxyOnly | none => decide
    | untrusted => exact absurd rfl above

/-- A derived profile is within what its level allows. -/
theorem within_of_deriveIsolationProfile
    (derived : deriveIsolationProfile level permissions overrides serverId sandboxBase
      = .ok profile) :
    profile.Within permissions (overrides.getD .none) := by
  have admitted := deriveIsolationProfile_isOk_iff.mp ⟨profile, derived⟩
  rcases parts_of_deriveIsolationProfile derived with
    ⟨filesystemEq, networkEq, levelEq, memoryEq, processesEq⟩
  by_cases lowest : level = .untrusted
  · -- Nothing is overridden, so every part is the default or its upgrade.
    subst lowest
    have untouched : overrides.getD .none = .none := admitted
    rw [untouched] at filesystemEq networkEq memoryEq processesEq ⊢
    constructor
    · apply Nat.le_of_eq
      rw [levelEq, ← Except.ok.inj filesystemEq]
    · apply Nat.le_of_eq
      rw [levelEq, ← Except.ok.inj networkEq]
    · rw [levelEq, memoryEq]
      exact limitWithin_ceiling (fun same => nomatch same) fun _ => rfl
    · rw [levelEq, processesEq]
      exact limitWithin_ceiling (fun same => nomatch same) fun _ => rfl
  · have scopes : ScopesAdmitted level (overrides.getD .none) := by
      cases level with
      | core | standard => exact admitted
      | experimental => exact admitted.1
      | untrusted => exact absurd rfl lowest
    constructor
    · rw [levelEq]
      exact filesystem_within scopes filesystemEq
    · rw [levelEq]
      exact network_within scopes lowest networkEq
    · rw [levelEq, memoryEq]
      apply limitWithin_ceiling
      · rintro rfl requested given bound boundEq
        cases boundEq
        exact admitted.2.1 requested given
      · intro same
        exact absurd same lowest
    · rw [levelEq, processesEq]
      apply limitWithin_ceiling
      · rintro rfl requested given bound boundEq
        cases boundEq
        exact admitted.2.2 requested given
      · intro same
        exact absurd same lowest

end Derivation

/-! ## Every child -/

/-- Every child of a connection runs under a profile of its effective level and
within what that level allows. -/
def FailsClosed (kernel : Kernel) (world : Surroundings) (manager : Manager)
    (config : McpServerConfig) : Prop :=
  ∀ child ∈ (connectServer kernel world manager config).children,
    ∃ level profile, effectiveTrustLevel kernel world config = .ok level ∧
      child.isolation = some profile ∧ profile.trustLevel = level ∧
      profile.Within config.requiredPermissions (config.isolation.getD .none)

/-- An attempt that gets as far as a running child. -/
def Attempt.starts : Attempt → Bool
  | .unreached _ => false
  | .failed _ => true
  | .connected _ => true

/-- The gates and the seal let the server through, and some attempt gets as far
as a running child. -/
def Launches (kernel : Kernel) (world : Surroundings) (config : McpServerConfig)
    (existing : Option ServerStatus) : Prop :=
  config.isHttpTransport = false ∧ checkGates kernel world config existing = .ok () ∧
    ∃ number ∈ [1, 2, 3], (world.attempt number).starts

variable {kernel : Kernel} {world : Surroundings} {manager : Manager} {config : McpServerConfig}

/-- A stdio attempt leaves a child behind exactly where one of them starts. -/
theorem connectAttempts_children (stdio : config.isHttpTransport = false)
    {profile : Option IsolationProfile} {numbers : List Nat} {lastError : String} :
    (connectAttempts kernel world config profile numbers lastError).1 = [] ↔
      ∀ number ∈ numbers, (world.attempt number).starts = false := by
  have spawnedEq : spawned config profile = [⟨config.command, config.args, profile⟩] := by
    rw [spawned, stdio, if_neg Bool.false_ne_true]
  have reachable : httpRefusal kernel config = none := by
    rw [httpRefusal, stdio, if_neg Bool.false_ne_true]
  induction numbers generalizing lastError with
  | nil => simp [connectAttempts]
  | cons number rest ih =>
      rw [connectAttempts, reachable]
      cases outcome : world.attempt number with
      | unreached error => simp [outcome, ih, Attempt.starts]
      | failed error => simp [outcome, spawnedEq, Attempt.starts]
      | connected session => simp [outcome, spawnedEq, Attempt.starts]

/-- The children of an admitted call are those of its attempts. -/
theorem children_of_admission {profile : Option IsolationProfile}
    (admitted : admission kernel world config (manager.statusOf config.id) = .ok profile) :
    (connectServer kernel world manager config).children =
      (connectAttempts kernel world config profile [1, 2, 3] "unknown error").1 := by
  rcases connectServer_cases kernel world manager config with
    ⟨stop, refused, -⟩ | ⟨other, stop, same, -, called⟩ | ⟨other, session, same, -, called⟩
  · rw [admitted] at refused
    contradiction
  · rw [admitted] at same
    cases same
    rw [called]
    rfl
  · rw [admitted] at same
    cases same
    rw [called]
    rfl

/-- The profile of a stdio child, where isolation is on, is what the derivation
gives. -/
theorem isolationProfile_of_stdio (isolating : kernel.isolationEnabled = true)
    (stdio : config.isHttpTransport = false) (level : TrustLevel) :
    (∃ profile, isolationProfile kernel config level = some profile) ↔
      OverridesAdmitted level (config.isolation.getD .none) := by
  rw [← deriveIsolationProfile_isOk_iff]
  constructor
  · rintro ⟨profile, profileEq⟩
    exact ⟨profile, isolationProfile_eq_some profileEq⟩
  · rintro ⟨profile, derived⟩
    refine ⟨profile, ?_⟩
    rw [isolationProfile, stdio, if_neg Bool.false_ne_true, if_pos isolating, derived]

/-- With isolation on, isolation fails closed for a server exactly where its
effective level admits what the operator overrides, or nothing is started. -/
theorem failsClosed_iff (kernel : Kernel) (world : Surroundings) (manager : Manager)
    (config : McpServerConfig) (isolating : kernel.isolationEnabled = true) :
    FailsClosed kernel world manager config ↔
      (Launches kernel world config (manager.statusOf config.id) →
        ∀ level, effectiveTrustLevel kernel world config = .ok level →
          OverridesAdmitted level (config.isolation.getD .none)) := by
  constructor
  · rintro closed ⟨stdio, gates, number, mem, starts⟩ level effective
    have admitted := admit_eq_ok_iff.mpr ⟨gates, level, effective, rfl⟩
    have nonempty : (connectServer kernel world manager config).children ≠ [] := by
      rw [children_of_admission admitted, Ne, connectAttempts_children stdio]
      intro none
      rw [none number mem] at starts
      contradiction
    rcases List.exists_mem_of_ne_nil _ nonempty with ⟨child, childMem⟩
    rcases closed child childMem with ⟨-, profile, -, isolated, -⟩
    rcases mem_children childMem with ⟨-, given, givenEq, rfl⟩
    rw [admitted] at givenEq
    cases givenEq
    exact (isolationProfile_of_stdio isolating stdio level).mp ⟨profile, isolated⟩
  · intro condition child mem
    rcases mem_children mem with ⟨stdio, profile, admitted, rfl⟩
    rcases admit_eq_ok_iff.mp admitted with ⟨gates, level, effective, profileEq⟩
    have launched : Launches kernel world config (manager.statusOf config.id) := by
      refine ⟨stdio, gates, ?_⟩
      by_contra none
      have empty : (connectServer kernel world manager config).children = [] := by
        rw [children_of_admission admitted, connectAttempts_children stdio]
        intro number numberMem
        apply Bool.eq_false_iff.mpr
        intro starts
        exact none ⟨number, numberMem, starts⟩
      rw [empty] at mem
      simp at mem
    rcases (isolationProfile_of_stdio isolating stdio level).mpr
      (condition launched level effective)
      with ⟨derived, derivedEq⟩
    have derivation := isolationProfile_eq_some derivedEq
    exact ⟨level, derived, effective, profileEq.symm.trans derivedEq,
      trustLevel_of_deriveIsolationProfile derivation, within_of_deriveIsolationProfile derivation⟩

/-! ## A standard server without a seal -/

/-- Isolation fails closed for every server. -/
def IsolationFailsClosed : Prop :=
  ∀ (kernel : Kernel) (world : Surroundings) (manager : Manager) (config : McpServerConfig),
    kernel.isolationEnabled = true → FailsClosed kernel world manager config

/-- A standard server whose memory the operator limits further. -/
def limitedReader : McpServerConfig :=
  { unsealedCore with
    mgp := some ⟨some "standard"⟩
    isolation := some { IsolationConfig.none with memoryLimitMb := some 64 } }

/-- Without its seal, the override is no longer admitted: the child of a server
that is no longer trusted runs without a profile. -/
theorem not_isolationFailsClosed : ¬IsolationFailsClosed := by
  intro closed
  have failsClosed := closed strictKernel (answering readerSession) .empty limitedReader rfl
  have started : (⟨"python", ["/data/mcp-servers/reader/server.py"], none⟩ : Child) ∈
      (connectServer strictKernel (answering readerSession) .empty limitedReader).children := by
    have admitted : admission strictKernel (answering readerSession) limitedReader none =
      .ok none := by
      rfl
    rw [children_of_admission admitted]
    exact List.mem_cons_self
  rcases failsClosed _ started with ⟨-, profile, -, isolated, -⟩
  contradiction

theorem failsClosed_iff_limitedReader :
    FailsClosed strictKernel (answering readerSession) .empty limitedReader ↔
      (Launches strictKernel (answering readerSession) limitedReader none →
        ∀ level, effectiveTrustLevel strictKernel (answering readerSession) limitedReader =
            .ok level →
          OverridesAdmitted level (limitedReader.isolation.getD .none)) :=
  failsClosed_iff strictKernel (answering readerSession) .empty limitedReader rfl

end ClotoCore.Mcp
