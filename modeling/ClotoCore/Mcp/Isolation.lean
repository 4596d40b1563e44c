import ClotoCore.Mcp.Trust

/-!
# Isolation profiles

The profile a child runs under: the defaults of its trust level, widened by the
permissions it was granted and then replaced by what the operator overrides,
where the level admits an override at all.
-/

namespace ClotoCore.Mcp

open ClotoCore.Approval

/-! ## Fallible steps -/

/-- A sequence of two fallible steps succeeds where both do. -/
theorem bind_eq_ok_iff {ε α β : Type} {first : Except ε α} {next : α → Except ε β} {result : β} :
    (first >>= next) = .ok result ↔ ∃ value, first = .ok value ∧ next value = .ok result := by
  cases first with
  | error problem => simp [bind, Except.bind]
  | ok value => simp [bind, Except.bind]

/-- A check before a fallible step passes where it does. -/
theorem check_bind_eq_ok_iff {ε β : Type} {check : Except ε Unit} {next : Unit → Except ε β}
    {result : β} : (check >>= next) = .ok result ↔ check = .ok () ∧ next () = .ok result := by
  cases check with
  | error problem => simp [bind, Except.bind]
  | ok => simp [bind, Except.bind]

/-- It fails where one of the two does. -/
theorem bind_eq_error_iff {ε α β : Type} {first : Except ε α} {next : α → Except ε β}
    {problem : ε} :
    (first >>= next) = .error problem ↔
      first = .error problem ∨ ∃ value, first = .ok value ∧ next value = .error problem := by
  cases first with
  | error raised => simp [bind, Except.bind]
  | ok value => simp [bind, Except.bind]

/-! ## Scopes -/

/-- `FilesystemScope` -/
inductive FilesystemScope where
  | unrestricted
  | sandbox
  | readonly
  | none
  deriving DecidableEq

/-- `NetworkScope` -/
inductive NetworkScope where
  | unrestricted
  | proxyOnly
  | none
  deriving DecidableEq

/-- How permissive a scope is. -/
def FilesystemScope.rank : FilesystemScope → Nat
  | .none => 0
  | .readonly => 1
  | .sandbox => 2
  | .unrestricted => 3

/-- How permissive a scope is. -/
def NetworkScope.rank : NetworkScope → Nat
  | .none => 0
  | .proxyOnly => 1
  | .unrestricted => 2

/-- `FilesystemScope::parse`.  No character outside ASCII lowers into one of
the names. -/
def FilesystemScope.parse (text : String) : Except String FilesystemScope :=
  match text.toLower with
  | "unrestricted" => .ok .unrestricted
  | "sandbox" => .ok .sandbox
  | "readonly" => .ok .readonly
  | "none" => .ok .none
  | other => .error s!"unknown filesystem scope: {other}"

/-- `NetworkScope::parse` -/
def NetworkScope.parse (text : String) : Except String NetworkScope :=
  match text.toLower with
  | "unrestricted" => .ok .unrestricted
  | "proxyonly" | "proxy_only" => .ok .proxyOnly
  | "none" => .ok .none
  | other => .error s!"unknown network scope: {other}"

/-! ## Profiles -/

/-- `IsolationProfile` -/
structure IsolationProfile where
  trustLevel : TrustLevel
  sandboxDir : String
  filesystemScope : FilesystemScope
  networkScope : NetworkScope
  memoryLimitMb : Option Nat
  maxChildProcesses : Option Nat
  openFileLimit : Option Nat

/-- `Defaults` -/
structure Defaults where
  filesystem : FilesystemScope
  network : NetworkScope
  memoryLimitMb : Option Nat
  maxChildProcesses : Option Nat

/-- `defaults_for` -/
def defaultsFor : TrustLevel → Defaults
  | .core => ⟨.unrestricted, .unrestricted, none, none⟩
  | .standard => ⟨.sandbox, .proxyOnly, some 512, some 5⟩
  | .experimental => ⟨.sandbox, .proxyOnly, some 256, some 2⟩
  | .untrusted => ⟨.sandbox, .none, some 128, some 0⟩

/-- What `apply_permission_upgrades` does for one permission. -/
def applyPermissionUpgrade (scopes : FilesystemScope × NetworkScope) (permission : String) :
    FilesystemScope × NetworkScope :=
  if permission = "network.outbound" ∧ scopes.2.rank < NetworkScope.proxyOnly.rank then
    (scopes.1, .proxyOnly)
  else if permission = "filesystem.write" ∧ scopes.1.rank < FilesystemScope.sandbox.rank then
    (.sandbox, scopes.2)
  else if permission = "filesystem.read" ∧ scopes.1.rank < FilesystemScope.readonly.rank then
    (.readonly, scopes.2)
  else scopes

/-- `apply_permission_upgrades` -/
def applyPermissionUpgrades (permissions : List String)
    (scopes : FilesystemScope × NetworkScope) : FilesystemScope × NetworkScope :=
  permissions.foldl applyPermissionUpgrade scopes

/-- `ensure!` -/
def ensure (condition : Bool) (message : String) : Except String Unit :=
  if condition then .ok () else .error message

/-- The check of a limit that may not exceed a bound. -/
def checkLimit (override : Option Nat) (bound : Nat) (message : Nat → String) :
    Except String Unit :=
  match override with
  | none => .ok ()
  | some requested => ensure (requested ≤ bound) (message requested)

/-- The check of a scope that only a core server may open. -/
def checkFilesystem (level : String) (override : Option String) : Except String Unit :=
  match override with
  | none => .ok ()
  | some text => do
      let scope ← FilesystemScope.parse text
      ensure (scope != .unrestricted)
        s!"{level} servers cannot override filesystem to Unrestricted"

/-- The check of a scope that only a core server may open. -/
def checkNetwork (level : String) (override : Option String) : Except String Unit :=
  match override with
  | none => .ok ()
  | some text => do
      let scope ← NetworkScope.parse text
      ensure (scope != .unrestricted) s!"{level} servers cannot override network to Unrestricted"

/-- `validate_overrides` -/
def validateOverrides (trustLevel : TrustLevel) (overrides : IsolationConfig) :
    Except String Unit :=
  match trustLevel with
  | .core => .ok ()
  | .standard => do
      checkFilesystem "Standard" overrides.filesystemScope
      checkNetwork "Standard" overrides.networkScope
  | .experimental => do
      checkLimit overrides.memoryLimitMb 512 fun mem =>
        s!"Experimental servers cannot exceed 512 MB memory limit (requested {mem})"
      checkLimit overrides.maxChildProcesses 5 fun procs =>
        s!"Experimental servers cannot exceed 5 child processes (requested {procs})"
      checkFilesystem "Experimental" overrides.filesystemScope
      checkNetwork "Experimental" overrides.networkScope
  | .untrusted =>
      ensure
        (!(overrides.memoryLimitMb.isSome || overrides.cpuTimeLimitSecs.isSome
          || overrides.filesystemScope.isSome || overrides.networkScope.isSome
          || overrides.maxChildProcesses.isSome))
        "Untrusted servers cannot have isolation overrides"

/-- The scope that stands after an override of the file system. -/
def overriddenFilesystem (scope : FilesystemScope) :
    Option String → Except String FilesystemScope
  | none => .ok scope
  | some text => FilesystemScope.parse text

/-- The scope that stands after an override of the network. -/
def overriddenNetwork (scope : NetworkScope) : Option String → Except String NetworkScope
  | none => .ok scope
  | some text => NetworkScope.parse text

/-- An absent `IsolationConfig` overrides nothing. -/
def IsolationConfig.none : IsolationConfig where
  memoryLimitMb := Option.none
  cpuTimeLimitSecs := Option.none
  filesystemScope := Option.none
  networkScope := Option.none
  maxChildProcesses := Option.none

/-- `Path::join`: an absolute path replaces the base, and a separator is put
between the two where the base does not end with one. -/
def joinPath (base relative : String) : String :=
  if "/".toList.isPrefixOf relative.toList then relative
  else if base = "" ∨ base.toList.getLast? = some '/' then base ++ relative
  else base ++ "/" ++ relative

/-- `derive_isolation_profile`.  Overriding nothing passes every check, so an
absent table of overrides is read as an empty one. -/
def deriveIsolationProfile (trustLevel : TrustLevel) (permissions : List String)
    (overrides : Option IsolationConfig) (serverId sandboxBase : String) :
    Except String IsolationProfile := do
  let given := overrides.getD .none
  validateOverrides trustLevel given
  let defaults := defaultsFor trustLevel
  let scopes := applyPermissionUpgrades permissions (defaults.filesystem, defaults.network)
  let filesystem ← overriddenFilesystem scopes.1 given.filesystemScope
  let network ← overriddenNetwork scopes.2 given.networkScope
  return {
    trustLevel
    sandboxDir := joinPath sandboxBase serverId
    filesystemScope := filesystem
    networkScope := network
    memoryLimitMb := given.memoryLimitMb <|> defaults.memoryLimitMb
    maxChildProcesses := given.maxChildProcesses <|> defaults.maxChildProcesses
    openFileLimit := none }

end ClotoCore.Mcp
