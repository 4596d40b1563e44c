import ClotoCore.Encoding.Text
import ClotoCore.Lookup.Dictionary
import Mathlib.Data.String.Basic

/-!
# Agents

The row of an agent, and what the manager of agents does to it.  The metadata of an agent
is one object of texts.  Clients read it as a whole and send it back as a whole; some of
its keys are set and removed one by one, and some are added when it is read.
-/

namespace ClotoCore.Agents

open ClotoCore.Encoding ClotoCore.Lookup

/-- `cloto_shared::CapabilityType` -/
inductive CapabilityType where
  | reasoning
  | memory
  | communication
  | tool
  | vision
  | stt
  | speech
  | hal
  | web
  deriving DecidableEq

/-! ## Metadata -/

/-- The metadata of an agent. -/
abbrev Metadata := Dictionary String String

namespace Metadata

/-- `json_set` -/
def jsonSet (metadata : Metadata) (key text : String) : Metadata :=
  metadata.insert (key, text)

/-- `json_remove` -/
def jsonRemove (metadata : Metadata) (keys : List String) : Metadata :=
  keys.foldl Keyed.remove metadata

/-- `json_extract` -/
def jsonExtract (metadata : Metadata) (key : String) : Option String :=
  metadata.value key

/-- A flag is set for what is present. -/
def insertFlag (metadata : Metadata) (flag : String) (present : Bool) : Metadata :=
  if present then metadata.jsonSet flag "true" else metadata

/-- One field of the old metadata is put into the new one, where the old one has it. -/
def preserve (old : Metadata) (key : String) (new : Metadata) : Metadata :=
  match old.jsonExtract key with
  | some text => new.jsonSet key text
  | none => new

/-- The metadata of `update_agent_config`: the fields that other operations manage are put
into the map that is given. -/
def replaceBy (old given : Metadata) : Metadata :=
  old.preserve "avatar_updated_at" <|
    old.preserve "vrm_path" <|
      old.preserve "avatar_description" <|
        old.preserve "avatar_path" given

end Metadata

/-! ## Rows -/

/-- A row of `agents`. -/
structure AgentRow where
  id : String
  name : String
  description : String
  enabled : Bool
  lastSeen : Int
  defaultEngineId : String
  requiredCapabilities : List CapabilityType
  metadata : Metadata
  powerPasswordHash : Option String
  agentType : String

/-- The rows of the table, of which no two have one id. -/
abbrev AgentTable := Keyed AgentRow.id

/-- `AgentMetadata` -/
structure AgentMetadata where
  id : String
  name : String
  description : String
  enabled : Bool
  lastSeen : Int
  status : String
  defaultEngineId : Option String
  requiredCapabilities : List CapabilityType
  metadata : Metadata
  agentType : String

/-- `resolve_status`, with the threshold and the time. -/
def resolveStatus (threshold now : Int) (enabled : Bool) (lastSeen : Int) : String :=
  if enabled = false ∨ lastSeen = 0 then "offline"
  else if now - lastSeen ≤ threshold then "online"
  else "degraded"

namespace AgentRow

/-- The metadata that is reported: whether a password, an avatar and a model are set is
added to what is stored. -/
def reported (row : AgentRow) : Metadata :=
  let guarded := row.metadata.insertFlag "has_power_password" row.powerPasswordHash.isSome
  let pictured := guarded.insertFlag "has_avatar" (guarded.jsonExtract "avatar_path").isSome
  pictured.insertFlag "has_vrm" (pictured.jsonExtract "vrm_path").isSome

/-- `row_to_metadata` -/
def toMetadata (threshold now : Int) (row : AgentRow) : AgentMetadata where
  id := row.id
  name := row.name
  description := row.description
  enabled := row.enabled
  lastSeen := row.lastSeen
  status := resolveStatus threshold now row.enabled row.lastSeen
  defaultEngineId := some row.defaultEngineId
  requiredCapabilities := row.requiredCapabilities
  metadata := row.reported
  agentType := row.agentType

/-- `set_avatar` -/
def setAvatar (avatarPath : String) (avatarDescription : Option String) (now : Int)
    (row : AgentRow) : AgentRow :=
  { row with
    metadata := ((row.metadata.jsonSet "avatar_path" avatarPath).jsonSet
      "avatar_description" (avatarDescription.getD "")).jsonSet
      "avatar_updated_at" (toString now) }

/-- `clear_avatar` -/
def clearAvatar (row : AgentRow) : AgentRow :=
  { row with
    metadata := row.metadata.jsonRemove
      ["avatar_path", "avatar_description", "has_avatar", "avatar_updated_at"] }

/-- `set_vrm` -/
def setVrm (vrmPath : String) (row : AgentRow) : AgentRow :=
  { row with metadata := row.metadata.jsonSet "vrm_path" vrmPath }

/-- `clear_vrm` -/
def clearVrm (row : AgentRow) : AgentRow :=
  { row with metadata := row.metadata.jsonRemove ["vrm_path"] }

/-- The `UPDATE` of `set_password`. -/
def setPassword (hash : Option String) (row : AgentRow) : AgentRow :=
  { row with powerPasswordHash := hash }

/-- The `UPDATE` of `update_agent_config`. -/
def updateConfig (name description defaultEngineId : Option String) (metadata : Option Metadata)
    (row : AgentRow) : AgentRow :=
  { row with
    metadata :=
      match metadata with
      | some given => row.metadata.replaceBy given
      | none => row.metadata
    name := name.getD row.name
    description := description.getD row.description
    defaultEngineId := defaultEngineId.getD row.defaultEngineId }

end AgentRow

/-! ## Ids -/

/-- `is_agent_slug` -/
def isAgentSlug (slug : String) : Bool :=
  match slug.toList with
  | [] => false
  | first :: rest =>
      slug.utf8ByteSize ≤ 64 && (first.isLower || first.isDigit) &&
        rest.all fun c => c.isLower || c.isDigit || c == '_' || c == '-'

/-- What `derive_agent_id` makes of a character. -/
def slugChar (c : Char) : Option Char :=
  if c.isAlphanum || c == '_' || c == '-' then some c
  else if c.toNat < 128 || isWhitespace c then some '_'
  else none

/-- `derive_agent_id` -/
def deriveAgentId (toLowercase : String → String) (name : String) : Option String :=
  let mapped := (toLowercase name).toList.filterMap slugChar
  let slug := String.ofList ((mapped.dropWhile fun c => !c.isAlphanum).take 64)
  if isAgentSlug slug then some slug else none

/-! ## The manager -/

/-- The errors of the manager. -/
inductive AgentError where
  /-- `agent id … must be lowercase ASCII` -/
  | slugRefused (given : String)
  /-- `the name … suggests no id` -/
  | noSlug (name : String)
  /-- `Password hashing failed: …` -/
  | passwordHashing
  /-- `Cannot delete the default agent '…'` -/
  | defaultAgent (agentId : String)
  /-- `ClotoError::AgentNotFound` -/
  | agentNotFound (agentId : String)
  /-- `sqlx::Error::RowNotFound` -/
  | rowNotFound
  /-- Another error of the database. -/
  | database
  deriving DecidableEq

/-- What `create_agent_with_id` is given, the outcome of `hash_password` where it is
called, and the time. -/
structure NewAgent where
  id : Option String
  name : String
  description : String
  defaultEngine : String
  metadata : Metadata
  requiredCapabilities : List CapabilityType
  password : Option String
  hashed : Option String
  now : Int

namespace NewAgent

/-- A password that is not empty. -/
def guarded (new : NewAgent) : Bool :=
  new.password.any fun password => !password.isEmpty

/-- The slug that is asked for, or one that is made from the name. -/
def slug (toLowercase : String → String) (new : NewAgent) : Except AgentError String :=
  match new.id with
  | some given =>
      if isAgentSlug (trim given) then .ok (trim given) else .error (.slugRefused (trim given))
  | none =>
      match deriveAgentId toLowercase new.name with
      | some slug => .ok slug
      | none => .error (.noSlug new.name)

/-- The hash of the password, if there is one. -/
def passwordHash (new : NewAgent) : Except AgentError (Option String) :=
  if new.guarded then
    match new.hashed with
    | some hash => .ok (some hash)
    | none => .error .passwordHashing
  else .ok none

/-- The row that is inserted. -/
def row (toLowercase : String → String) (new : NewAgent) : Except AgentError AgentRow := do
  let slug ← new.slug toLowercase
  let hash ← new.passwordHash
  return {
    id := "agent." ++ slug
    name := new.name
    description := new.description
    enabled := true
    lastSeen := new.now
    defaultEngineId := new.defaultEngine
    requiredCapabilities := new.requiredCapabilities
    metadata := new.metadata
    powerPasswordHash := hash
    agentType := "agent" }

end NewAgent

namespace AgentTable

/-- `create_agent_with_id`, with the row it has inserted. -/
def createAgentWithId (toLowercase : String → String) (agents : AgentTable) (new : NewAgent) :
    Except AgentError (AgentRow × AgentTable) := do
  let row ← new.row toLowercase
  match agents.get row.id with
  | some _ => .error .database
  | none => return (row, agents.insert row)

/-- `get_agent_config` -/
def getAgentConfig (threshold now : Int) (agents : AgentTable) (agentId : String) :
    Except AgentError (AgentMetadata × String) :=
  match agents.get agentId with
  | some row => .ok (row.toMetadata threshold now, row.defaultEngineId)
  | none => .error .rowNotFound

/-- `get_avatar_path` -/
def getAvatarPath (agents : AgentTable) (agentId : String) : Except AgentError (Option String) :=
  match agents.get agentId with
  | some row => .ok (row.metadata.jsonExtract "avatar_path")
  | none => .error .rowNotFound

/-- `get_vrm_path` -/
def getVrmPath (agents : AgentTable) (agentId : String) : Except AgentError (Option String) :=
  match agents.get agentId with
  | some row => .ok (row.metadata.jsonExtract "vrm_path")
  | none => .error .rowNotFound

/-- `get_password_hash` -/
def getPasswordHash (agents : AgentTable) (agentId : String) : Except AgentError (Option String) :=
  match agents.get agentId with
  | some row => .ok row.powerPasswordHash
  | none => .error .rowNotFound

/-- An `UPDATE` of the row with an id, if there is one. -/
def update (agents : AgentTable) (agentId : String) (change : AgentRow → AgentRow) : AgentTable :=
  match agents.get agentId with
  | some row => agents.insert (change row)
  | none => agents

/-- `update_agent_config` -/
def updateAgentConfig (agents : AgentTable) (agentId : String)
    (name description defaultEngineId : Option String) (metadata : Option Metadata) :
    Except AgentError AgentTable :=
  match agents.get agentId with
  | some _ =>
      .ok (agents.update agentId (·.updateConfig name description defaultEngineId metadata))
  | none => .error (.agentNotFound agentId)

/-- `set_password`, with the outcome of `hash_password` where it is called. -/
def setPassword (agents : AgentTable) (agentId : String) (password hashed : Option String) :
    Except AgentError AgentTable :=
  match password, hashed with
  | none, _ => .ok (agents.update agentId (·.setPassword none))
  | some _, some hash => .ok (agents.update agentId (·.setPassword (some hash)))
  | some _, none => .error .passwordHashing

end AgentTable

end ClotoCore.Agents
