import ClotoCore.Encoding.Quoted
import ClotoCore.Mcp.Routing

/-!
# Servers that are kept across restarts

A server that is added is written to its row before it is connected, and at the
next boot the row is all there is of it.  The row has no columns for the
permissions, the isolation overrides, the restart policy and the protocol era,
and the upsert keeps the seal and the trust level of the row that was there.
-/

namespace ClotoCore.Mcp

open ClotoCore.Encoding

/-! ## Rows -/

/-- `McpServerRecord` -/
structure McpServerRecord where
  name : String
  command : String
  args : String
  env : String
  transport : String
  url : Option String
  authToken : Option String
  directory : Option String
  displayName : Option String
  autoRestart : Bool
  scriptContent : Option String
  description : Option String
  defaultPolicy : String
  marketplaceId : Option String
  installedVersion : Option String
  trustLevel : Option String
  magicSeal : Option String
  isActive : Bool
  createdAt : Int
  updatedAt : Option Int
  deriving DecidableEq

/-- `McpServerRecord::default` -/
def McpServerRecord.default : McpServerRecord where
  name := ""
  command := ""
  args := "[]"
  env := "{}"
  transport := "stdio"
  url := none
  authToken := none
  directory := none
  displayName := none
  autoRestart := true
  scriptContent := none
  description := none
  defaultPolicy := "opt-in"
  marketplaceId := none
  installedVersion := none
  trustLevel := none
  magicSeal := none
  isActive := true
  createdAt := 0
  updatedAt := none

/-- `mcp_servers`, whose primary key is the name. -/
structure ServerTable where
  rows : String → Option McpServerRecord
  named : ∀ id row, rows id = some row → row.name = id

/-- The table without servers. -/
def ServerTable.empty : ServerTable where
  rows := fun _ => none
  named := by simp

/-- `PLACEHOLDER_COMMAND` -/
def placeholderCommand : String := "config-loaded"

/-- What the conflict clause makes of the row that is there: a column under
`COALESCE` keeps its value where the new one is null. -/
def McpServerRecord.update (stored excluded : McpServerRecord) (now : Int) : McpServerRecord :=
  { stored with
    command := excluded.command
    args := excluded.args
    env := excluded.env
    transport := excluded.transport
    url := excluded.url
    authToken := excluded.authToken
    directory := excluded.directory <|> stored.directory
    displayName := excluded.displayName <|> stored.displayName
    autoRestart := excluded.autoRestart
    scriptContent := excluded.scriptContent
    description := excluded.description <|> stored.description
    marketplaceId := excluded.marketplaceId <|> stored.marketplaceId
    installedVersion := excluded.installedVersion <|> stored.installedVersion
    trustLevel := excluded.trustLevel <|> stored.trustLevel
    magicSeal := excluded.magicSeal <|> stored.magicSeal
    isActive := excluded.isActive
    updatedAt := some now }

/-- The row that an upsert leaves behind. -/
def ServerTable.upsert (table : ServerTable) (record : McpServerRecord) (now : Int) :
    McpServerRecord :=
  match table.rows record.name with
  | none => record
  | some stored => stored.update record now

theorem ServerTable.name_upsert (table : ServerTable) (record : McpServerRecord) (now : Int) :
    (table.upsert record now).name = record.name := by
  unfold upsert
  cases here : table.rows record.name with
  | none => rfl
  | some stored => exact table.named record.name stored here

/-- `save_mcp_server` -/
def saveMcpServer (table : ServerTable) (record : McpServerRecord) (now : Int) : ServerTable where
  rows := Function.update table.rows record.name (some (table.upsert record now))
  named := by
    intro id row here
    by_cases same : id = record.name
    · subst same
      rw [Function.update_self] at here
      cases here
      exact table.name_upsert record now
    · rw [Function.update_of_ne same] at here
      exact table.named id row here

/-! ## Adding a server -/

/-- The texts that `serde_json` writes into two columns and reads from them. -/
structure SerdeJson where
  argsToString : List String → String
  argsFromStr : String → Option (List String)
  envToString : List (String × String) → String
  envFromStr : String → Option (List (String × String))
  /-- A list that is written is read back. -/
  args : ∀ args, argsFromStr (argsToString args) = some args
  /-- A map that is written is read back as the same map. -/
  env : ∀ env, ∃ loaded, envFromStr (envToString env) = some loaded ∧
    ∀ name, loaded.lookup name = env.lookup name

/-- The record that `add_server_config` saves. -/
def serverRecord (json : SerdeJson) (config : McpServerConfig)
    (scriptContent description : Option String) (now : Int) : McpServerRecord :=
  { McpServerRecord.default with
    name := config.id
    command := config.command
    args := json.argsToString config.args
    env := json.envToString config.env
    transport := config.transport
    url := config.url
    authToken := config.authToken
    scriptContent
    description
    displayName := config.displayName
    autoRestart := config.autoRestart.getD true
    trustLevel := config.configTrust
    magicSeal := config.magicSeal
    createdAt := now
    isActive := true }

/-- The manager and its database. -/
structure Store where
  table : ServerTable
  manager : Manager

/-- The handle of a server that was saved and could not be connected, unless it
has one already. -/
def Manager.insertFailed (manager : Manager) (config : McpServerConfig) (message : String) :
    Manager :=
  match manager.servers config.id with
  | some _ => manager
  | none =>
      { manager with
        servers := Function.update manager.servers config.id <| some
          { config
            client := none
            tools := []
            mgpNegotiated := none
            status := .error message
            isolationProfile := none } }

/-- `add_server_config`, where `saved` says how the write of the row went. -/
def addServerConfig (json : SerdeJson) (kernel : Kernel) (world : Surroundings) (store : Store)
    (config : McpServerConfig) (scriptContent description : Option String) (now : Int)
    (saved : Except String Unit) : Store × Except String (List String) :=
  match saved with
  | .error message => (store, .error message)
  | .ok () =>
      let table := saveMcpServer store.table
        (serverRecord json config scriptContent description now)
        now
      let connection := connectServer kernel world store.manager config
      match connection.result with
      | .ok names => (⟨table, connection.manager⟩, .ok names)
      | .error message => (⟨table, connection.manager.insertFailed config message⟩, .ok [])

/-! ## Booting -/

/-- `persisted_server_config` -/
def persistedServerConfig (json : SerdeJson) (record : McpServerRecord) : McpServerConfig :=
  { McpServerConfig.default with
    id := record.name
    command := record.command
    args := (json.argsFromStr record.args).getD []
    env := (json.envFromStr record.env).getD []
    transport := record.transport
    url := record.url
    authToken := record.authToken
    autoRestart := some record.autoRestart
    displayName := record.displayName
    mgp := record.trustLevel.map fun trustLevel => ⟨some trustLevel⟩
    magicSeal := record.magicSeal
    marketplaceId := record.marketplaceId }

/-- The configuration that `load_and_connect_priority` has for a server: rows that
are not active are not read, and placeholders are left out. -/
def bootConfig (json : SerdeJson) (table : ServerTable) (id : String) : Option McpServerConfig :=
  (table.rows id).bind fun record =>
    if record.isActive = true ∧ record.command ≠ placeholderCommand then
      some (persistedServerConfig json record)
    else none

/-! ## What a restart keeps -/

/-- Two configurations that every decision of a connection takes for the same. -/
structure SameConnection (config loaded : McpServerConfig) : Prop where
  id : loaded.id = config.id
  command : loaded.command = config.command
  args : loaded.args = config.args
  env : ∀ name, loaded.env.lookup name = config.env.lookup name
  transport : loaded.transport = config.transport
  url : loaded.url = config.url
  authToken : loaded.authToken = config.authToken
  requiredPermissions : loaded.requiredPermissions = config.requiredPermissions
  trustLevel : loaded.configTrust = config.configTrust
  magicSeal : loaded.magicSeal = config.magicSeal
  isolation : loaded.isolation = config.isolation
  restartPolicy : loaded.restartPolicy = config.restartPolicy
  autoRestart : loaded.autoRestart = config.autoRestart
  protocolEra : loaded.protocolEra = config.protocolEra

/-- The permission gate of a kernel holds a server. -/
def Held (kernel : Kernel) (board : PermissionBoard) (config : McpServerConfig) : Prop :=
  ∃ stop, refusePending kernel board config.id config.requiredPermissions = .error stop

/-- The next boot has the same connection for a server, and holds it where it was
held before. -/
def Reconstructs (json : SerdeJson) (table : ServerTable) (config : McpServerConfig) : Prop :=
  ∃ loaded, bootConfig json table config.id = some loaded ∧ SameConnection config loaded ∧
    ∀ kernel board, Held kernel board config → Held kernel board loaded

/-- A configuration that the columns of its row can hold, and a row that keeps
nothing of what was stored under the name. -/
structure Storable (table : ServerTable) (config : McpServerConfig) : Prop where
  command : config.command ≠ placeholderCommand
  requiredPermissions : config.requiredPermissions = []
  isolation : config.isolation = none
  restartPolicy : config.restartPolicy = none
  autoRestart : config.autoRestart ≠ none
  protocolEra : config.protocolEra = none
  trustLevel : config.configTrust = none →
    ∀ stored, table.rows config.id = some stored → stored.trustLevel = none
  magicSeal : config.magicSeal = none →
    ∀ stored, table.rows config.id = some stored → stored.magicSeal = none

section Restart

variable {json : SerdeJson} {table : ServerTable} {config : McpServerConfig}
  {scriptContent description : Option String} {now : Int}

/-- A column under `COALESCE`: what is stored under the name decides where the
configuration says nothing. -/
def merged (column : McpServerRecord → Option String) (table : ServerTable) (id : String)
    (value : Option String) : Option String :=
  value <|> (table.rows id).bind column

theorem merged_eq_iff {column : McpServerRecord → Option String} {id : String}
    {value : Option String} :
    merged column table id value = value ↔
      (value = none → ∀ stored, table.rows id = some stored → column stored = none) := by
  cases value with
  | some value => simp [merged]
  | none =>
      cases here : table.rows id with
      | none => simp [merged, here]
      | some stored => simp [merged, here]

/-- The row of a server that was saved. -/
structure SavedRow (json : SerdeJson) (table : ServerTable) (config : McpServerConfig)
    (row : McpServerRecord) : Prop where
  name : row.name = config.id
  command : row.command = config.command
  args : row.args = json.argsToString config.args
  env : row.env = json.envToString config.env
  transport : row.transport = config.transport
  url : row.url = config.url
  authToken : row.authToken = config.authToken
  autoRestart : row.autoRestart = config.autoRestart.getD true
  trustLevel : row.trustLevel = merged McpServerRecord.trustLevel table config.id config.configTrust
  magicSeal : row.magicSeal = merged McpServerRecord.magicSeal table config.id config.magicSeal
  isActive : row.isActive = true

theorem rows_saveMcpServer (record : McpServerRecord) :
    (saveMcpServer table record now).rows record.name = some (table.upsert record now) :=
  Function.update_self ..

theorem savedRow_upsert (json : SerdeJson) (table : ServerTable) (config : McpServerConfig)
    (scriptContent description : Option String) (now : Int) :
    SavedRow json table config
      (table.upsert (serverRecord json config scriptContent description now) now) := by
  let record := serverRecord json config scriptContent description now
  have ofInserted (here : table.rows config.id = none) : SavedRow json table config record :=
    { name := rfl, command := rfl, args := rfl, env := rfl, transport := rfl, url := rfl
      authToken := rfl, autoRestart := rfl, isActive := rfl
      trustLevel := by simp [merged, here, record, serverRecord]
      magicSeal := by simp [merged, here, record, serverRecord] }
  have ofUpdated {stored : McpServerRecord} (here : table.rows config.id = some stored) :
      SavedRow json table config (stored.update record now) :=
    { name := table.named config.id stored here
      command := rfl, args := rfl, env := rfl, transport := rfl, url := rfl
      authToken := rfl, autoRestart := rfl, isActive := rfl
      trustLevel := by simp only [merged, here]; rfl
      magicSeal := by simp only [merged, here]; rfl }
  unfold ServerTable.upsert
  change SavedRow json table config
    (match table.rows config.id with | none => record | some stored => stored.update record now)
  cases here : table.rows config.id with
  | none => exact ofInserted here
  | some stored => exact ofUpdated here

theorem configTrust_persisted (row : McpServerRecord) :
    (persistedServerConfig json row).configTrust = row.trustLevel := by
  cases level : row.trustLevel with
  | none => simp [McpServerConfig.configTrust, persistedServerConfig, level]
  | some text => simp [McpServerConfig.configTrust, persistedServerConfig, level]

/-- The default that the flag gets where it is not set is seen at the next boot. -/
theorem some_getD_eq_iff {flag : Option Bool} : some (flag.getD true) = flag ↔ flag ≠ none := by
  cases flag <;> simp

/-- The row of a server that was saved reads back as the same connection exactly
if the configuration is storable. -/
theorem sameConnection_iff {row : McpServerRecord} (saved : SavedRow json table config row) :
    config.command ≠ placeholderCommand ∧ SameConnection config (persistedServerConfig json row) ↔
      Storable table config := by
  constructor
  · rintro ⟨command, same⟩
    have trustLevel := same.trustLevel
    rw [configTrust_persisted, saved.trustLevel] at trustLevel
    have magicSeal : row.magicSeal = config.magicSeal := same.magicSeal
    rw [saved.magicSeal] at magicSeal
    have autoRestart : some row.autoRestart = config.autoRestart := same.autoRestart
    rw [saved.autoRestart] at autoRestart
    exact
      { command
        requiredPermissions := same.requiredPermissions.symm
        isolation := same.isolation.symm
        restartPolicy := same.restartPolicy.symm
        autoRestart := some_getD_eq_iff.mp autoRestart
        protocolEra := same.protocolEra.symm
        trustLevel := merged_eq_iff.mp trustLevel
        magicSeal := merged_eq_iff.mp magicSeal }
  · intro storable
    have autoRestart : some row.autoRestart = config.autoRestart := by
      rw [saved.autoRestart]
      exact some_getD_eq_iff.mpr storable.autoRestart
    have args : (json.argsFromStr row.args).getD [] = config.args := by
      rw [saved.args, json.args]
      rfl
    have env : ∀ name, ((json.envFromStr row.env).getD []).lookup name =
      config.env.lookup name := by
      rcases json.env config.env with ⟨loaded, reads, agrees⟩
      rw [saved.env, reads]
      exact agrees
    have trustLevel : (persistedServerConfig json row).configTrust = config.configTrust := by
      rw [configTrust_persisted, saved.trustLevel]
      exact merged_eq_iff.mpr storable.trustLevel
    have magicSeal : row.magicSeal = config.magicSeal := by
      rw [saved.magicSeal]
      exact merged_eq_iff.mpr storable.magicSeal
    constructor
    · exact storable.command
    · exact
        { id := saved.name
          command := saved.command
          args
          env
          transport := saved.transport
          url := saved.url
          authToken := saved.authToken
          requiredPermissions := storable.requiredPermissions.symm
          trustLevel
          magicSeal
          isolation := storable.isolation.symm
          restartPolicy := storable.restartPolicy.symm
          autoRestart
          protocolEra := storable.protocolEra.symm }

/-- The row that was saved is read at the next boot unless it is a placeholder. -/
theorem bootConfig_eq_some_iff {row : McpServerRecord} (saved : SavedRow json table config row)
    {after : ServerTable} (here : after.rows config.id = some row) {loaded : McpServerConfig} :
    bootConfig json after config.id = some loaded ↔
      config.command ≠ placeholderCommand ∧ persistedServerConfig json row = loaded := by
  rw [bootConfig, here, Option.bind_some, saved.isActive, saved.command]
  split
  · rename_i read
    rw [Option.some.injEq, and_iff_right read.2]
  · rename_i skipped
    constructor
    · intro read
      contradiction
    · rintro ⟨command, -⟩
      exact absurd ⟨rfl, command⟩ skipped

end Restart

theorem table_addServerConfig (json : SerdeJson) (kernel : Kernel) (world : Surroundings)
    (store : Store) (config : McpServerConfig) (scriptContent description : Option String)
    (now : Int) :
    (addServerConfig json kernel world store config scriptContent description now
        (.ok ())).1.table =
      saveMcpServer store.table (serverRecord json config scriptContent description now) now := by
  unfold addServerConfig
  dsimp only
  split <;> rfl

/-- A server that was added is the same connection at the next boot exactly if its
configuration is storable. -/
theorem reconstructs_iff (json : SerdeJson) (kernel : Kernel) (world : Surroundings)
    (store : Store) (config : McpServerConfig) (scriptContent description : Option String)
    (now : Int) :
    Reconstructs json
        (addServerConfig json kernel world store config scriptContent description now
          (.ok ())).1.table config ↔
      Storable store.table config := by
  let record := serverRecord json config scriptContent description now
  have here : (saveMcpServer store.table record now).rows config.id =
      some (store.table.upsert record now) := rows_saveMcpServer record
  have saved : SavedRow json store.table config (store.table.upsert record now) :=
    savedRow_upsert json store.table config scriptContent description now
  rw [table_addServerConfig, ← sameConnection_iff saved]
  constructor
  · rintro ⟨loaded, boots, same, -⟩
    rcases (bootConfig_eq_some_iff saved here).mp boots with ⟨command, rfl⟩
    exact ⟨command, same⟩
  · rintro ⟨command, same⟩
    refine ⟨_, (bootConfig_eq_some_iff saved here).mpr ⟨command, rfl⟩, same, ?_⟩
    intro kernel board held
    unfold Held
    rw [same.id, same.requiredPermissions]
    exact held

/-! ## A server whose gate is lost -/

/-- No permission of a configuration is left after a boot. -/
theorem requiredPermissions_bootConfig {json : SerdeJson} {table : ServerTable} {id : String}
    {loaded : McpServerConfig} (boots : bootConfig json table id = some loaded) :
    loaded.requiredPermissions = [] := by
  rcases Option.bind_eq_some_iff.mp boots with ⟨record, -, read⟩
  split at read
  · cases read
    rfl
  · contradiction

/-- The permission gate holds no server that is booted. -/
theorem not_held_of_boots {json : SerdeJson} {table : ServerTable} {id : String}
    {loaded : McpServerConfig} (boots : bootConfig json table id = some loaded) (kernel : Kernel)
    (board : PermissionBoard) : ¬Held kernel board loaded := by
  rintro ⟨stop, held⟩
  rw [requiredPermissions_bootConfig boots, refusePending, pendingPermissions] at held
  simp at held

/-- Lists and maps of texts, written with quotes between brackets. -/
def quotedJson : SerdeJson where
  argsToString args := String.ofList ('[' :: (separated ',' (args.map quoted) ++ [']']))
  argsFromStr text := some (quotedTexts .outside text.toList)
  envToString env :=
    String.ofList <|
      '\x7b' :: (separated ',' (env.map fun entry => quoted entry.1 ++ ':' :: quoted entry.2)
        ++ ['\x7d'])
  envFromStr text := some (pairs (quotedTexts .outside text.toList))
  args args := by
    have reads (text : String) (rest : List Char) :
        quotedTexts .outside (quoted text ++ rest) = [text] ++ quotedTexts .outside rest :=
      quotedTexts_quoted text rest
    have read := quotedTexts_separated reads (by decide : ',' ≠ '"') (by decide : ']' ≠ '"') args
    simpa [quotedTexts] using read
  env env := by
    have reads (entry : String × String) (rest : List Char) :
        quotedTexts .outside ((quoted entry.1 ++ ':' :: quoted entry.2) ++ rest) =
          [entry.1, entry.2] ++ quotedTexts .outside rest := by
      rw [List.append_assoc, quotedTexts_quoted]
      simp [quotedTexts, quotedTexts_quoted]
    have read := quotedTexts_separated reads (by decide : ',' ≠ '"') (by decide : '\x7d' ≠ '"') env
    refine ⟨env, ?_, fun _ => rfl⟩
    have opened : quotedTexts .outside
        ('\x7b' :: (separated ',' (env.map fun entry => quoted entry.1 ++ ':' :: quoted entry.2)
          ++ ['\x7d'])) = env.flatMap fun entry => [entry.1, entry.2] := by
      simpa [quotedTexts] using read
    rw [String.toList_ofList, opened, pairs_flatMap]

/-- Every server that is added is the same connection at the next boot. -/
def AlwaysReconstructs : Prop :=
  ∀ (json : SerdeJson) (kernel : Kernel) (world : Surroundings) (store : Store)
    (config : McpServerConfig) (scriptContent description : Option String) (now : Int),
    Reconstructs json
      (addServerConfig json kernel world store config scriptContent description now
        (.ok ())).1.table config

/-- A server that needs a permission. -/
def gatedServer : McpServerConfig :=
  { nodeServer "a" with autoRestart := some true, requiredPermissions := ["network"] }

/-- The gate that holds the server is open after the next boot. -/
theorem not_alwaysReconstructs : ¬AlwaysReconstructs := by
  intro always
  rcases always quotedJson openKernel (fileServer 0) ⟨.empty, .empty⟩ gatedServer none none 0 with
    ⟨loaded, boots, -, heldAgain⟩
  let board : PermissionBoard := ⟨false, fun _ => false⟩
  have held : Held openKernel board gatedServer := ⟨_, rfl⟩
  exact not_held_of_boots boots openKernel board (heldAgain openKernel board held)

end ClotoCore.Mcp
