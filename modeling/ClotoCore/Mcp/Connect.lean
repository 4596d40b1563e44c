import ClotoCore.Mcp.Manager
import ClotoCore.Seal.TreeSeal

/-!
# Connecting a server

`connect_server` in its order: the gates before anything is launched, the seal
and the isolation profile that follows from it, three attempts at a connection,
the permissions the server itself asks for, and the registration.  An exit on
the way may or may not put the server into the error status.
-/

namespace ClotoCore.Mcp

open ClotoCore.Approval ClotoCore.Encoding

/-! ## What a connection meets -/

/-- An early return: its message, and whether `set_server_error` was called. -/
structure Stop where
  message : String
  marksError : Bool

/-- The permissions an operator has approved, when a gate looks at them.  A
query that fails counts as not approved. -/
structure PermissionBoard where
  yoloMode : Bool
  isPermissionApproved : String → Bool

/-- The directory that `install_root_for` finds around an entry point. -/
structure InstallRoot where
  path : String
  listing : Seal.Listing
  tree : Option Seal.InstallTree

/-- `ProtocolEra` -/
inductive ProtocolEra where
  | legacy
  | modern
  deriving DecidableEq

/-- What a connected server answers until it is registered. -/
structure Session where
  client : Nat
  protocolEra : ProtocolEra
  mgpServerCaps : Option MgpServerCapabilities
  initializedNotification : Except String Unit
  listTools : Except String (List McpTool)

/-- How one attempt at a connection ends. -/
inductive Attempt where
  /-- No child was started, or the remote server was not reached. -/
  | unreached (error : String)
  /-- The server started and the handshake failed. -/
  | failed (error : String)
  | connected (session : Session)

/-- The settings of the kernel. -/
structure Kernel where
  crate : MgpSeal
  sha256 : Digest
  allowUnsigned : Bool
  isolationEnabled : Bool
  sandboxBaseDir : String
  yoloExceptions : List String
  /-- `std::env::var` -/
  envVar : String → Option String

/-- What one call of `connect_server` finds outside the manager. -/
structure Surroundings where
  /-- The reason for which `check_launchable` refuses the connector's manifest. -/
  manifestRefusal : Option String
  permissionGate : PermissionBoard
  /-- Whether `resolve_sealable_entry_point` names a file that is there. -/
  entryPointExists : Bool
  /-- `load_or_generate_seal_key` -/
  sealKey : Except String Bytes
  installRoot : Option InstallRoot
  attempt : Nat → Attempt
  permissionFlow : PermissionBoard

/-- A started child and the profile it runs under. -/
structure Child where
  command : String
  args : List String
  isolation : Option IsolationProfile

/-! ## Commands -/

/-- `str::contains` of a text. -/
def occursIn (needle : List Char) : List Char → Bool
  | [] => needle.isEmpty
  | char :: rest => needle.isPrefixOf (char :: rest) || occursIn needle rest

/-- `is_workspace_binary` -/
def isWorkspaceBinary (command : String) : Bool :=
  let normalized := command.toList.map fun char => if char = '\\' then '/' else char
  let debug := "target/debug/mgp-".toList
  let release := "target/release/mgp-".toList
  if occursIn "..".toList normalized then false
  else if debug.isPrefixOf normalized || release.isPrefixOf normalized then true
  else if occursIn ('/' :: debug) normalized then !('/' :: debug).isPrefixOf normalized
  else if occursIn ('/' :: release) normalized then !('/' :: release).isPrefixOf normalized
  else false

/-- `ALLOWED_COMMANDS` -/
def allowedCommands : List String := ["npx", "node", "python", "python3", "deno", "bun", "docker"]

/-- `validate_command` -/
def validateCommand (command : String) : Except String String :=
  if isWorkspaceBinary command then .ok command
  else if command.toList.contains '/' || command.toList.contains '\\' then
    .error s!"Command must not contain path separators: '{command}'. Use bare command names only."
  else if allowedCommands.contains command then .ok command
  else .error s!"Command '{command}' not in whitelist. Allowed commands: {repr allowedCommands}"

/-! ## The gates -/

/-- The permissions that are neither approved nor approved by YOLO mode. -/
def pendingPermissions (kernel : Kernel) (board : PermissionBoard) (permissions : List String) :
    List String :=
  let manual := if board.yoloMode then permissions.filter kernel.yoloExceptions.contains
    else permissions
  manual.filter fun permission => !board.isPermissionApproved permission

/-- The check that both permission gates end with. -/
def refusePending (kernel : Kernel) (board : PermissionBoard) (id : String)
    (permissions : List String) : Except Stop Unit :=
  let pending := pendingPermissions kernel board permissions
  if pending.isEmpty then .ok ()
  else
    .error
      { message :=
          s!"MCP server '{id}' blocked: {pending.length} permission(s) pending approval: " ++
            "[" ++ ", ".intercalate pending ++ "]. Approve via dashboard or API, then retry."
        marksError := false }

/-- The gate that asks what the connector says it is. -/
def checkManifest (world : Surroundings) (config : McpServerConfig) : Except Stop Unit :=
  match world.manifestRefusal with
  | some reason => .error ⟨s!"MCP server '{config.id}': {reason}", false⟩
  | none => .ok ()

/-- The gate on the command of a local server. -/
def checkCommand (config : McpServerConfig) : Except Stop Unit :=
  if config.isHttpTransport then .ok ()
  else
    match validateCommand config.command with
    | .error message => .error ⟨message, false⟩
    | .ok _ => .ok ()

/-- The gate against a second connection. -/
def checkDuplicate (config : McpServerConfig) (existing : Option ServerStatus) :
    Except Stop Unit :=
  if existing = some .connected then
    .error ⟨s!"MCP server '{config.id}' is already connected", false⟩
  else .ok ()

/-- The gates before the seal is looked at. -/
def checkGates (kernel : Kernel) (world : Surroundings) (config : McpServerConfig)
    (existing : Option ServerStatus) : Except Stop Unit := do
  checkManifest world config
  checkCommand config
  checkDuplicate config existing
  refusePending kernel world.permissionGate config.id config.requiredPermissions

/-! ## Seal and isolation -/

/-- The status of the seal, `none` where there is no file to be sealed. -/
def sealStatus (kernel : Kernel) (world : Surroundings) (config : McpServerConfig) :
    Except String (Option SealStatus) :=
  if world.entryPointExists then do
    let key ← world.sealKey
    match config.magicSeal.filter Seal.isTreeSeal, world.installRoot with
    | some value, some root =>
        -- A tree that cannot be read counts as a mismatch.
        match Seal.verifyTreeSeal kernel.sha256 root.listing root.path key value root.tree with
        | .ok true => .ok (some .verified)
        | .ok false => .ok (some .failed)
        | .error _ => .ok (some .failed)
    | _, _ =>
        (kernel.crate.checkSeal (declaredTrustLevel kernel.crate config) config.magicSeal
          kernel.allowUnsigned).map some
  else .ok none

/-- What the status of the seal makes of the declared level. -/
def judgeSeal (kernel : Kernel) (config : McpServerConfig) (status : Option SealStatus) :
    Except Stop TrustLevel :=
  let declared := declaredTrustLevel kernel.crate config
  match status with
  | some .verified => .ok declared
  | some .failed =>
      .error
        { message := s!"MCP server '{config.id}': Magic Seal verification failed — binary may be tampered"
          marksError := true }
  | some .unsigned => .ok (if declared ≠ .untrusted then .untrusted else declared)
  | some .skipped => .ok declared
  | none => .ok
      (if declared ≠ .untrusted ∧ kernel.allowUnsigned = false then .untrusted else declared)

/-- `effective_trust_level` -/
def effectiveTrustLevel (kernel : Kernel) (world : Surroundings) (config : McpServerConfig) :
    Except Stop TrustLevel :=
  if config.isHttpTransport then .ok (declaredTrustLevel kernel.crate config)
  else
    match sealStatus kernel world config with
    | .error message => .error ⟨message, false⟩
    | .ok status => judgeSeal kernel config status

/-- The profile a child is started with.  A profile that cannot be derived is
logged, and the launch goes on without one. -/
def isolationProfile (kernel : Kernel) (config : McpServerConfig) (trustLevel : TrustLevel) :
    Option IsolationProfile :=
  if config.isHttpTransport then none
  else if kernel.isolationEnabled then
    match deriveIsolationProfile trustLevel config.requiredPermissions config.isolation config.id
        kernel.sandboxBaseDir with
    | .ok profile => some profile
    | .error _ => none
  else none

/-- Everything before the status `Connecting` is set. -/
def admission (kernel : Kernel) (world : Surroundings) (config : McpServerConfig)
    (existing : Option ServerStatus) : Except Stop (Option IsolationProfile) := do
  checkGates kernel world config existing
  let trustLevel ← effectiveTrustLevel kernel world config
  return isolationProfile kernel config trustLevel

/-! ## Attempts -/

/-- `auth_token_reference` -/
def authTokenReference (stored : String) : Option String :=
  let body := stored.toList.drop 2
  if "$\x7b".toList.isPrefixOf stored.toList && "\x7d".toList.isSuffixOf body then
    match body.dropLast with
    | [] => none
    | first :: rest =>
        if (first.isAlpha || first == '_') && rest.all fun char => char.isAlphanum || char == '_' then
          some (String.ofList (first :: rest))
        else none
  else none

/-- `http_bearer` -/
def httpBearer (kernel : Kernel) (config : McpServerConfig) : Except String (Option String) :=
  match config.authToken with
  | some stored =>
      match authTokenReference stored with
      | some name =>
          match (kernel.envVar name).filter fun value => !value.isEmpty with
          | some value => .ok (some value)
          | none =>
              .error <|
                s!"MCP server '{config.id}': auth_token refers to $\x7b{name}\x7d, which is not " ++
                  "set in the kernel's environment"
      | none => .ok (some stored)
  | none => .ok (config.env.lookup "BRIDGE_AUTH_TOKEN")

/-- The check of the HTTP transport that ends an attempt through `?`. -/
def httpRefusal (kernel : Kernel) (config : McpServerConfig) : Option String :=
  if config.isHttpTransport then
    match config.url with
    | none =>
        some s!"MCP server '{config.id}': transport is 'streamable-http' but no url configured"
    | some _ =>
        match httpBearer kernel config with
        | .error message => some message
        | .ok _ => none
  else none

/-- The children that one started attempt adds. -/
def spawned (config : McpServerConfig) (profile : Option IsolationProfile) : List Child :=
  if config.isHttpTransport then [] else [⟨config.command, config.args, profile⟩]

/-- The attempts that are left, after the error of the last one. -/
def connectAttempts (kernel : Kernel) (world : Surroundings) (config : McpServerConfig)
    (profile : Option IsolationProfile) :
    List Nat → String → List Child × Except Stop Session
  | [], lastError =>
      ([],
        .error
          { message :=
              s!"Failed to connect to MCP server '{config.id}' after 3 attempts: {lastError}"
            marksError := true })
  | number :: rest, _ =>
      match httpRefusal kernel config with
      | some message => ([], .error ⟨message, false⟩)
      | none =>
          match world.attempt number with
          | .unreached error => connectAttempts kernel world config profile rest error
          | .failed error =>
              let later := connectAttempts kernel world config profile rest error
              (spawned config profile ++ later.1, later.2)
          | .connected session => (spawned config profile, .ok session)

/-! ## After the connection -/

/-- What the two sides settle on. -/
def Session.negotiated (session : Session) (kernel : Kernel) (config : McpServerConfig) :
    Option NegotiatedMgp :=
  negotiate kernel.crate session.mgpServerCaps config.configTrust

/-- The configured permissions and those that the server adds to them. -/
def allPermissions (config : McpServerConfig) (permissionsRequired : List String) : List String :=
  permissionsRequired.foldl
    (fun all permission => if all.contains permission then all else all ++ [permission])
    config.requiredPermissions

/-- The MGP permission flow: a server that speaks the extension is held until
everything it asks for is approved. -/
def permissionFlow (kernel : Kernel) (world : Surroundings) (config : McpServerConfig)
    (session : Session) : Except Stop Unit :=
  match session.negotiated kernel config, session.mgpServerCaps with
  | some mgp, some serverCaps =>
      if mgp.activeExtensions.contains "permissions" && !serverCaps.permissionsRequired.isEmpty then
        refusePending kernel world.permissionFlow config.id
          (allPermissions config serverCaps.permissionsRequired)
      else .ok ()
  | _, _ => .ok ()

/-- The acknowledgement that a handshake ends with. -/
def acknowledge (config : McpServerConfig) (session : Session) : Except Stop Unit :=
  match session.protocolEra, session.initializedNotification with
  | .legacy, .error error =>
      .error
        { message := s!"Failed to send initialized notification to [{config.id}]: {error}"
          marksError := true }
  | _, _ => .ok ()

/-- The tools a server lists, none where the listing fails. -/
def Session.tools (session : Session) : List McpTool :=
  match session.listTools with
  | .ok tools => tools
  | .error _ => []

/-- The handle that is registered. -/
def Session.handle (session : Session) (kernel : Kernel) (config : McpServerConfig)
    (profile : Option IsolationProfile) : McpServerHandle where
  config := config
  client := some session.client
  tools := session.tools
  mgpNegotiated := session.negotiated kernel config
  status := .connected
  isolationProfile := profile

/-- The capabilities that a server declares for itself. -/
def Session.toolsForCapability (session : Session) : Option (List (String × List String)) :=
  session.mgpServerCaps.bind MgpServerCapabilities.toolsForCapability

/-- Everything between the status `Connecting` and the registration. -/
def establish (kernel : Kernel) (world : Surroundings) (config : McpServerConfig)
    (profile : Option IsolationProfile) : List Child × Except Stop Session :=
  let attempts := connectAttempts kernel world config profile [1, 2, 3] "unknown error"
  (attempts.1, do
    let session ← attempts.2
    permissionFlow kernel world config session
    acknowledge config session
    return session)

/-! ## The whole call -/

/-- What an early return leaves behind. -/
def Stop.leave (stop : Stop) (manager : Manager) (id : String) : Manager :=
  if stop.marksError then manager.setServerError id stop.message else manager

/-- What one call of `connect_server` leaves behind, the children it started
and what it returns. -/
structure Connection where
  manager : Manager
  children : List Child
  result : Except String (List String)

/-- `connect_server` -/
def connectServer (kernel : Kernel) (world : Surroundings) (manager : Manager)
    (config : McpServerConfig) : Connection :=
  match admission kernel world config (manager.statusOf config.id) with
  | .error stop => ⟨stop.leave manager config.id, [], .error stop.message⟩
  | .ok profile =>
      let connecting := manager.setStatus config.id .connecting
      let established := establish kernel world config profile
      match established.2 with
      | .error stop => ⟨stop.leave connecting config.id, established.1, .error stop.message⟩
      | .ok session =>
          let handle := session.handle kernel config profile
          { manager := (connecting.takeClient config.id).register handle session.toolsForCapability
            children := established.1
            result := .ok handle.toolNames }

/-! ## Starting and restarting -/

/-- Why `start_server` does not even try. -/
inductive StartRefusal where
  | alreadyRunning
  | alreadyStarting
  deriving DecidableEq

/-- The statuses that `start_server` refuses. -/
def startRefusal : ServerStatus → Option StartRefusal
  | .connected => some .alreadyRunning
  | .connecting | .restarting => some .alreadyStarting
  | _ => none

/-- The text of a refusal. -/
def StartRefusal.message (id : String) : StartRefusal → String
  | .alreadyRunning => s!"Server '{id}' is already running"
  | .alreadyStarting => s!"Server '{id}' is already starting"

/-- The configuration that `start_server` connects with.  `stored` is what the
database has for a server that is not in memory. -/
def startConfig (manager : Manager) (id : String) (stored : Except String McpServerConfig) :
    Except String McpServerConfig :=
  match manager.servers id with
  | some handle =>
      match startRefusal handle.status with
      | some refusal => .error (refusal.message id)
      | none => .ok handle.config
  | none => stored

/-- `start_server` -/
def startServer (kernel : Kernel) (world : Surroundings) (manager : Manager) (id : String)
    (stored : Except String McpServerConfig) : Connection :=
  match startConfig manager id stored with
  | .error message => ⟨manager, [], .error message⟩
  | .ok config => connectServer kernel world manager config

/-- The stop inside a restart, whose failure is only logged. -/
def stopForRestart (manager : Manager) (id : String) : Manager :=
  let restarting := manager.setStatus id .restarting
  match restarting.stopServer id with
  | .ok stopped => stopped
  | .error _ => restarting

/-- `restart_server` -/
def restartServer (kernel : Kernel) (world : Surroundings) (manager : Manager) (id : String)
    (stored : Except String McpServerConfig) : Connection :=
  startServer kernel world (stopForRestart manager id) id stored

/-! ## How a call can end -/

section Outcomes

variable {kernel : Kernel} {world : Surroundings} {manager : Manager} {config : McpServerConfig}

/-- A call is refused before it starts anything, ends on the way, or registers
the server it connected to. -/
theorem connectServer_cases (kernel : Kernel) (world : Surroundings) (manager : Manager)
    (config : McpServerConfig) :
    (∃ stop, admission kernel world config (manager.statusOf config.id) = .error stop ∧
      connectServer kernel world manager config =
        ⟨stop.leave manager config.id, [], .error stop.message⟩) ∨
    (∃ profile stop, admission kernel world config (manager.statusOf config.id) = .ok profile ∧
      (establish kernel world config profile).2 = .error stop ∧
      connectServer kernel world manager config =
        ⟨stop.leave (manager.setStatus config.id .connecting) config.id,
          (establish kernel world config profile).1, .error stop.message⟩) ∨
    (∃ profile session, admission kernel world config (manager.statusOf config.id) = .ok profile ∧
      (establish kernel world config profile).2 = .ok session ∧
      connectServer kernel world manager config =
        ⟨((manager.setStatus config.id .connecting).takeClient config.id).register
            (session.handle kernel config profile) session.toolsForCapability,
          (establish kernel world config profile).1,
          .ok (session.handle kernel config profile).toolNames⟩) := by
  unfold connectServer
  cases admitted : admission kernel world config (manager.statusOf config.id) with
  | error stop => exact .inl ⟨stop, rfl, rfl⟩
  | ok profile =>
      dsimp only
      cases ended : (establish kernel world config profile).2 with
      | error stop => exact .inr (.inl ⟨profile, stop, rfl, ended, rfl⟩)
      | ok session => exact .inr (.inr ⟨profile, session, rfl, ended, rfl⟩)

/-- What is admitted has passed the gates and has a level, which fixes its
profile. -/
theorem admit_eq_ok_iff {existing : Option ServerStatus} {profile : Option IsolationProfile} :
    admission kernel world config existing = .ok profile ↔
      checkGates kernel world config existing = .ok () ∧
        ∃ level, effectiveTrustLevel kernel world config = .ok level ∧
          isolationProfile kernel config level = profile := by
  rw [admission, bind_eq_ok_iff]
  constructor
  · rintro ⟨passed, gates, rest⟩
    rcases bind_eq_ok_iff.mp rest with ⟨level, effective, profileEq⟩
    exact ⟨gates, level, effective, Except.ok.inj profileEq⟩
  · rintro ⟨gates, level, effective, rfl⟩
    exact ⟨(), gates, bind_eq_ok_iff.mpr ⟨level, effective, rfl⟩⟩

/-- Pending permissions leave the status alone. -/
theorem marksError_of_refusePending {board : PermissionBoard} {id : String}
    {permissions : List String} {stop : Stop}
    (refused : refusePending kernel board id permissions = .error stop) :
    stop.marksError = false := by
  unfold refusePending at refused
  dsimp only at refused
  split at refused
  · contradiction
  · cases refused
    rfl

/-- So does every gate before the launch. -/
theorem marksError_of_checkGates {existing : Option ServerStatus} {stop : Stop}
    (refused : checkGates kernel world config existing = .error stop) :
    stop.marksError = false := by
  simp only [checkGates, bind_eq_error_iff] at refused
  rcases refused with manifest | ⟨-, -, command | ⟨-, -, duplicate | ⟨-, -, pending⟩⟩⟩
  · unfold checkManifest at manifest
    split at manifest
    · cases manifest
      rfl
    · contradiction
  · unfold checkCommand at command
    split at command
    · contradiction
    · split at command
      · cases command
        rfl
      · contradiction
  · unfold checkDuplicate at duplicate
    split at duplicate
    · cases duplicate
      rfl
    · contradiction
  · exact marksError_of_refusePending pending

/-- What passes the gates is not connected yet. -/
theorem not_connected_of_checkGates {existing : Option ServerStatus}
    (gates : checkGates kernel world config existing = .ok ()) : existing ≠ some .connected := by
  rintro rfl
  simp only [checkGates, bind_eq_ok_iff] at gates
  rcases gates with ⟨-, -, -, -, granted, duplicate, -⟩
  simp [checkDuplicate] at duplicate

/-- The session of an attempt that connects. -/
def Surroundings.answer (world : Surroundings) (number : Nat) : Option Session :=
  match world.attempt number with
  | .connected session => some session
  | _ => none

/-- The first attempt that connects ends the attempts. -/
def Surroundings.session (world : Surroundings) : Option Session :=
  [1, 2, 3].findSome? world.answer

theorem connectAttempts_session {profile : Option IsolationProfile} {numbers : List Nat}
    {lastError : String} {session : Session}
    (connected : (connectAttempts kernel world config profile numbers lastError).2 = .ok session) :
    numbers.findSome? world.answer = some session := by
  induction numbers generalizing lastError with
  | nil => simp [connectAttempts] at connected
  | cons number rest ih =>
      rw [connectAttempts] at connected
      rw [List.findSome?_cons, Surroundings.answer]
      split at connected
      · contradiction
      · cases outcome : world.attempt number with
        | unreached error | failed error =>
            rw [outcome] at connected
            exact ih connected
        | connected found =>
            rw [outcome] at connected
            exact congrArg some (Except.ok.inj connected)

/-- What is established passed each of its three parts. -/
theorem establish_eq_ok_iff {profile : Option IsolationProfile} {session : Session} :
    (establish kernel world config profile).2 = .ok session ↔
      (connectAttempts kernel world config profile [1, 2, 3] "unknown error").2 = .ok session ∧
        permissionFlow kernel world config session = .ok () ∧
        acknowledge config session = .ok () := by
  simp only [establish, bind_eq_ok_iff]
  constructor
  · rintro ⟨found, attempted, passed, flow, sent, acknowledged, same⟩
    cases same
    exact ⟨attempted, flow, acknowledged⟩
  · rintro ⟨attempted, flow, acknowledged⟩
    exact ⟨session, attempted, (), flow, (), acknowledged, rfl⟩

theorem session_of_establish {profile : Option IsolationProfile} {session : Session}
    (established : (establish kernel world config profile).2 = .ok session) :
    world.session = some session :=
  connectAttempts_session (establish_eq_ok_iff.mp established).1

/-- Every child of an attempt is the configured one under the given profile. -/
theorem mem_connectAttempts {profile : Option IsolationProfile} {numbers : List Nat}
    {lastError : String} {child : Child}
    (mem : child ∈ (connectAttempts kernel world config profile numbers lastError).1) :
    config.isHttpTransport = false ∧ child = ⟨config.command, config.args, profile⟩ := by
  have ofSpawned (inSpawned : child ∈ spawned config profile) :
      config.isHttpTransport = false ∧ child = ⟨config.command, config.args, profile⟩ := by
    rw [spawned] at inSpawned
    split at inSpawned
    · simp at inSpawned
    · rename_i stdio
      exact ⟨Bool.eq_false_iff.mpr stdio, List.mem_singleton.mp inSpawned⟩
  induction numbers generalizing lastError with
  | nil => simp [connectAttempts] at mem
  | cons number rest ih =>
      rw [connectAttempts] at mem
      split at mem
      · simp at mem
      · split at mem
        · exact ih mem
        · rcases List.mem_append.mp mem with first | later
          · exact ofSpawned first
          · exact ih later
        · exact ofSpawned mem

/-- Every child of a call is the configured one under the admitted profile. -/
theorem mem_children {child : Child}
    (mem : child ∈ (connectServer kernel world manager config).children) :
    config.isHttpTransport = false ∧
      ∃ profile, admission kernel world config (manager.statusOf config.id) = .ok profile ∧
        child = ⟨config.command, config.args, profile⟩ := by
  rcases connectServer_cases kernel world manager config with
    ⟨stop, -, called⟩ | ⟨profile, stop, admitted, -, called⟩ |
      ⟨profile, session, admitted, -, called⟩
  · simp [called] at mem
  · rw [called] at mem
    rcases mem_connectAttempts mem with ⟨stdio, childEq⟩
    exact ⟨stdio, profile, admitted, childEq⟩
  · rw [called] at mem
    rcases mem_connectAttempts mem with ⟨stdio, childEq⟩
    exact ⟨stdio, profile, admitted, childEq⟩

/-- The parts of a call that returned the names of tools. -/
theorem connectServer_of_ok {names : List String}
    (returned : (connectServer kernel world manager config).result = .ok names) :
    ∃ profile session, admission kernel world config (manager.statusOf config.id) = .ok profile ∧
      (establish kernel world config profile).2 = .ok session ∧
      (connectServer kernel world manager config).manager =
        ((manager.setStatus config.id .connecting).takeClient config.id).register
          (session.handle kernel config profile) session.toolsForCapability := by
  rcases connectServer_cases kernel world manager config with
    ⟨stop, -, called⟩ | ⟨profile, stop, -, -, called⟩ | ⟨profile, session, admitted, ended, called⟩
  · simp [called] at returned
  · simp [called] at returned
  · exact ⟨profile, session, admitted, ended, by rw [called]⟩

end Outcomes

end ClotoCore.Mcp
