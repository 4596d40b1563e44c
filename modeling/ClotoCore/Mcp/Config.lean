import ClotoCore.Approval.Classification

/-!
# The configuration of a server

What the operator, the catalog or the database says about one server.  The
connection reads all of it; a stored row carries a part of it.
-/

namespace ClotoCore.Mcp

/-- `MgpServerConfig`: the trust level the operator expects. -/
structure MgpServerConfig where
  trustLevel : Option String
  deriving DecidableEq

/-- `IsolationConfig`: what the operator overrides in the profile. -/
structure IsolationConfig where
  memoryLimitMb : Option Nat
  cpuTimeLimitSecs : Option Nat
  filesystemScope : Option String
  networkScope : Option String
  maxChildProcesses : Option Nat
  deriving DecidableEq

/-- `RestartStrategy` -/
inductive RestartStrategy where
  | never
  | onFailure
  | always
  deriving DecidableEq

/-- `RestartPolicy` -/
structure RestartPolicy where
  strategy : RestartStrategy
  maxRestarts : Nat
  restartWindowSecs : Nat
  backoffBaseMs : Nat
  backoffMaxMs : Nat
  deriving DecidableEq

/-- `RestartPolicy::default` -/
def RestartPolicy.default : RestartPolicy where
  strategy := .onFailure
  maxRestarts := 5
  restartWindowSecs := 300
  backoffBaseMs := 1000
  backoffMaxMs := 30000

/-- `McpServerConfig` -/
structure McpServerConfig where
  id : String
  command : String
  args : List String
  env : List (String × String)
  transport : String
  url : Option String
  authToken : Option String
  autoRestart : Option Bool
  requiredPermissions : List String
  displayName : Option String
  mgp : Option MgpServerConfig
  restartPolicy : Option RestartPolicy
  magicSeal : Option String
  isolation : Option IsolationConfig
  marketplaceId : Option String
  protocolEra : Option String
  deriving DecidableEq

namespace McpServerConfig

/-- `McpServerConfig::default` -/
def default : McpServerConfig where
  id := ""
  command := ""
  args := []
  env := []
  transport := "stdio"
  url := none
  authToken := none
  autoRestart := none
  requiredPermissions := []
  displayName := none
  mgp := none
  restartPolicy := none
  magicSeal := none
  isolation := none
  marketplaceId := none
  protocolEra := none

/-- `is_http_transport` of `connect_server`. -/
def isHttpTransport (config : McpServerConfig) : Bool :=
  config.transport == "streamable-http"

/-- The trust level the configuration declares, as it is written. -/
def configTrust (config : McpServerConfig) : Option String :=
  config.mgp.bind MgpServerConfig.trustLevel

end McpServerConfig

end ClotoCore.Mcp
