import ClotoCore.Encoding.Text
import ClotoCore.Json.Value
import ClotoCore.Lookup.Dictionary
import ClotoCore.Mcp.ToolCall

/-!
# Server settings

The settings of a server are its stored row and, while it is in memory, its running
config.  They are shown with the environments of both laid one on the other and the
secrets masked.  An update takes the default policy, the bearer and the environment one
after the other; what is stored is what the next start of the server is given.
-/

namespace ClotoCore.Mcp.Settings

open ClotoCore.Encoding ClotoCore.Json ClotoCore.Lookup

/-! ## Servers -/

/-- `HashMap<String, String>` -/
abbrev Env := Dictionary String String

/-- A row of `mcp_servers`.  Its arguments and its environment are what their texts parse
to, `none` where a text is not a JSON array or map of texts. -/
@[ext]
structure McpServerRecord where
  name : String
  command : String
  args : Option (List String)
  env : Option Env
  transport : String
  url : Option String
  authToken : Option String
  autoRestart : Bool
  description : Option String
  defaultPolicy : String
  isActive : Bool

/-- What a running server was connected with. -/
@[ext]
structure McpServerConfig where
  env : Env
  transport : String
  authToken : Option String

/-- A server: its row, and its config where it is in memory. -/
@[ext]
structure Server where
  row : Option McpServerRecord
  handle : Option McpServerConfig

/-- `AppError`, as far as the handler answers it. -/
inductive AppError where
  | denied (text : String)
  | validation (text : String)
  | internal (text : String)

/-- The columns of `llm_providers` that are looked at. -/
structure LlmProvider where
  modelId : String
  thinkingMode : String

/-- What the kernel brings along: `str::to_uppercase`, the providers and the address at
which a child reaches it. -/
structure Kernel where
  toUppercase : String → String
  getLlmProvider : String → Option LlmProvider
  kernelChildUrl : String

/-- The map that a column holds, as `unwrap_or_default` reads it. -/
def McpServerRecord.envMap (record : McpServerRecord) : Env :=
  record.env.getD (Keyed.empty Prod.fst)

/-- `persisted_server_config` -/
def persistedServerConfig (record : McpServerRecord) : McpServerConfig where
  env := record.envMap
  transport := record.transport
  authToken := record.authToken

/-- `McpClientManager::get_server_env` -/
def getServerEnv (server : Server) : Env :=
  match server.handle with
  | some config => config.env
  | none => Keyed.empty Prod.fst

/-! ## The settings as they are shown -/

/-- Whether the name of a variable makes its value a secret. -/
def isSecret (kernel : Kernel) (key : String) : Bool :=
  let upper := kernel.toUppercase key
  containsText upper "KEY" || containsText upper "SECRET" || containsText upper "TOKEN" ||
    containsText upper "PASSWORD" || containsText upper "CREDENTIAL"

/-- The value of a variable as it is shown. -/
def shownValue (kernel : Kernel) (key value : String) : String :=
  if isSecret kernel key then "***" else value

/-- `auth_token_reference` -/
def authTokenReference (stored : String) : Option String :=
  match stored.toList with
  | '$' :: '\x7b' :: rest =>
      match rest.reverse with
      | '\x7d' :: name =>
          match name.reverse with
          | [] => none
          | first :: others =>
              if (first.isAlpha || first == '_') && others.all fun c => c.isAlphanum || c == '_' then
                some (String.ofList (first :: others))
              else none
      | _ => none
  | _ => none

/-- The settings in a response. -/
structure Shown where
  serverId : String
  defaultPolicy : String
  env : Env
  autoRestart : Bool
  transport : String
  url : Option String
  authTokenConfigured : Bool
  authTokenReference : Option String
  command : String
  args : List String
  description : Option String

/-- `get_mcp_server_settings` -/
def getMcpServerSettings (kernel : Kernel) (name : String) (server : Server) :
    Except AppError Shown :=
  let configEnv := getServerEnv server
  match server.row with
  | some record =>
      let merged := Dictionary.insertAll configEnv record.envMap.items
      .ok {
        serverId := record.name
        defaultPolicy := record.defaultPolicy
        env := Dictionary.mapValues (shownValue kernel) merged
        autoRestart := record.autoRestart
        transport := record.transport
        url := record.url
        authTokenConfigured := record.authToken.isSome
        authTokenReference := record.authToken.bind authTokenReference
        command := record.command
        args := record.args.getD []
        description := record.description
      }
  | none => .error (.validation s!"MCP server '{name}' not found")

/-- An environment as a JSON object. -/
def Shown.envObject (shown : Shown) : Value :=
  .object (shown.env.items.map fun entry => (entry.1, .string entry.2))

/-! ## Starting a server -/

/-- `McpClientManager::start_server`, up to the config that it connects with. -/
def startConfig (id : String) (server : Server) : Except String McpServerConfig :=
  match server.handle with
  | some config => .ok config
  | none =>
      match server.row with
      | none => .error s!"Server '{id}' not found in servers map or database"
      | some record =>
          if record.isActive then
            if record.command == "config-loaded" then
              .error s!"Server '{id}' is not installed — install it before starting it"
            else .ok (persistedServerConfig record)
          else .error s!"Server '{id}' not found in servers map or database"

/-- `McpClientManager::augment_engine_env` -/
def augmentEngineEnv (kernel : Kernel) (id : String) (baseEnv : Env) : Env :=
  let key := kernel.toUppercase id ++ "_MODEL"
  if (baseEnv.value key).isSome then baseEnv
  else
    match kernel.getLlmProvider id with
    | some provider =>
        if provider.modelId.isEmpty then baseEnv
        else
          let env := baseEnv.insert (key, provider.modelId)
          let prefillKey := kernel.toUppercase id ++ "_REASONING_PREFILL"
          match provider.thinkingMode with
          | "on" => env.insert (prefillKey, "false")
          | "off" => env.insert (prefillKey, "true")
          | _ => env
    | none => baseEnv

/-- `KERNEL_URL_ENV` -/
def kernelUrlEnv : String :=
  "CLOTO_KERNEL_URL"

/-- `McpClientManager::child_env_for` -/
def childEnvFor (kernel : Kernel) (id : String) (baseEnv : Env) : Env :=
  let env := augmentEngineEnv kernel id baseEnv
  if kernel.kernelChildUrl.isEmpty then env
  else if (env.value kernelUrlEnv).isSome then env
  else env.insert (kernelUrlEnv, kernel.kernelChildUrl)

/-- The variables that a start of the server gives it.  A remote server is given none: for
it these are the ones of its config, from which its bearer is read. -/
def received (kernel : Kernel) (id : String) (server : Server) :
    Except String (String → Option String) :=
  match startConfig id server with
  | .error problem => .error problem
  | .ok config =>
      if config.transport == "streamable-http" then .ok config.env.value
      else .ok (childEnvFor kernel id config.env).value

/-! ## Updating the settings -/

/-- What goes wrong with a request: it is not authorized, a read or a write of the database
fails, or the server does not come up again.  A write that fails writes nothing. -/
structure Faults where
  auth : Option String
  policyWrite : Option String
  tokenRead : Option String
  tokenWrite : Option String
  tokenReconnect : Option String
  envRead : Option String
  envWrite : Option String
  envRewrite : Option String
  envReconnect : Option String

/-- Nothing goes wrong. -/
def Faults.none : Faults :=
  ⟨.none, .none, .none, .none, .none, .none, .none, .none, .none⟩

/-- `char::is_control` -/
def isControl (c : Char) : Bool :=
  c.toNat < 0x20 || (0x7F ≤ c.toNat && c.toNat ≤ 0x9F)

/-- `parse_auth_token_update` -/
def parseAuthTokenUpdate (value : Value) : Except AppError (Option String) :=
  match value.asStr with
  | none => .error (.validation "auth_token must be a string (\"\" clears it)")
  | some raw =>
      if raw.isEmpty then .ok none
      else if raw.toList.any fun c => isWhitespace c || isControl c then
        .error (.validation "auth_token must not contain whitespace")
      else if ['$', '\x7b'].isPrefixOf raw.toList && (authTokenReference raw).isNone then
        .error (.validation "auth_token looks like a $\x7bNAME\x7d reference but is not one")
      else .ok (some raw)

/-- `McpClientManager::restart_server`: a server that comes up has the config it was
connected with in memory. -/
def restartServer (id : String) (refused : Option String) (server : Server) :
    Option String × Server :=
  match startConfig id server with
  | .error problem => (some problem, server)
  | .ok config =>
      match refused with
      | some problem => (some problem, server)
      | none => (none, { server with handle := some config })

/-- `McpClientManager::update_server_auth_token` -/
def updateServerAuthToken (id : String) (faults : Faults) (authToken : Option String)
    (server : Server) : Except String (Option String) × Server :=
  match faults.tokenWrite with
  | some problem => (.error problem, server)
  | none =>
      match server.row with
      | none => (.error s!"MCP server '{id}' not found", server)
      | some record =>
          let updated : Server := {
            row := some { record with authToken }
            handle := server.handle.map fun config => { config with authToken }
          }
          let (failure, restarted) := restartServer id faults.tokenReconnect updated
          (.ok failure, restarted)

/-- `McpClientManager::update_server_env` -/
def updateServerEnv (id : String) (faults : Faults) (env : Env) (server : Server) :
    Except String Unit × Server :=
  match faults.envRewrite with
  | some problem => (.error problem, server)
  | none =>
      let updated : Server := {
        row := server.row.map fun record => { record with env := some env }
        handle := server.handle.map fun config => { config with env }
      }
      let (_, restarted) := restartServer id faults.envReconnect updated
      (.ok (), restarted)

/-- The `default_policy` of an update. -/
def updateDefaultPolicy (name : String) (faults : Faults) (body : Value) (server : Server) :
    Except AppError Unit × Server :=
  match (body.get "default_policy").bind Value.asStr with
  | none => (.ok (), server)
  | some policy =>
      if policy ∈ ["opt-in", "opt-out"] then
        match faults.policyWrite with
        | some problem => (.error (.internal problem), server)
        | none =>
            match server.row with
            | none => (.error (.validation s!"MCP server '{name}' not found"), server)
            | some record =>
                (.ok (), { server with row := some { record with defaultPolicy := policy } })
      else (.error (.validation "default_policy must be 'opt-in' or 'opt-out'"), server)

/-- The `auth_token` of an update, up to the result that is reported. -/
def updateAuthToken (name : String) (faults : Faults) (body : Value) (server : Server) :
    Except AppError Value × Server :=
  match body.get "auth_token" with
  | none => (.ok .null, server)
  | some value =>
      match parseAuthTokenUpdate value with
      | .error problem => (.error problem, server)
      | .ok authToken =>
          match faults.tokenRead, server.row with
          | some problem, _ => (.error (.internal problem), server)
          | none, none => (.error (.validation s!"MCP server '{name}' not found"), server)
          | none, some record =>
              if record.transport == "streamable-http" then
                match updateServerAuthToken name faults authToken server with
                | (.error problem, after) => (.error (.internal problem), after)
                | (.ok failure, after) =>
                    (.ok (.object [("reconnected", .bool failure.isNone),
                      ("error", (failure.map Value.string).getD .null)]), after)
              else (.error (.validation "auth_token applies to streamable-http servers only"), server)

/-- What is stored of a variable that is sent: the mask stands for the value that is
there, and an empty text for none. -/
def sentValue (existingEnv : Env) (key : String) (value : Value) : Option String :=
  match value.asStr with
  | none => none
  | some text =>
      if text == "***" then existingEnv.value key
      else if text.isEmpty then none
      else some text

/-- The `env` of an update. -/
def updateEnv (name : String) (faults : Faults) (body : Value) (server : Server) :
    Except AppError Unit × Server :=
  match (body.get "env").bind Value.asObject with
  | none => (.ok (), server)
  | some envObj =>
      let existingEnv : Env :=
        match faults.envRead, server.row with
        | none, some record => record.envMap
        | _, _ => Keyed.empty Prod.fst
      let mergedEnv := Dictionary.collect (sentValue existingEnv) (Dictionary.ofList envObj)
      match faults.envWrite with
      | some problem => (.error (.internal problem), server)
      | none =>
          let stored : Server :=
            { server with
              row := server.row.map fun record => { record with env := some mergedEnv } }
          -- a failure here is only logged
          (.ok (), (updateServerEnv name faults mergedEnv stored).2)

/-- `update_mcp_server_settings` -/
def updateMcpServerSettings (name : String) (faults : Faults) (body : Value) (server : Server) :
    Except AppError Value × Server :=
  match faults.auth with
  | some problem => (.error (.denied problem), server)
  | none =>
      match updateDefaultPolicy name faults body server with
      | (.error problem, after) => (.error problem, after)
      | (.ok (), withPolicy) =>
          match updateAuthToken name faults body withPolicy with
          | (.error problem, after) => (.error problem, after)
          | (.ok authResult, withToken) =>
              match updateEnv name faults body withToken with
              | (.error problem, after) => (.error problem, after)
              | (.ok (), after) =>
                  if authResult.isNull then (.ok (.object []), after)
                  else (.ok (.object [("auth_token", authResult)]), after)

end ClotoCore.Mcp.Settings
