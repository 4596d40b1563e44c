import ClotoCore.Access.Gate
import ClotoCore.Agents.Manager
import ClotoCore.Chat.Store
import ClotoCore.Cron.Jobs
import ClotoCore.Lookup.Owners
import ClotoCore.Transition.Run

/-!
# Deleting agents

What an agent may do is in several tables and in two maps in memory, all by the id of the
agent.  A delete removes the files of the agent, then its rows in one transaction.  It
leaves alone the argument rules and the maps, and it fails where a conversation refers to
the agent.
-/

namespace ClotoCore.Agents.Deletion

open ClotoCore.Access ClotoCore.Chat ClotoCore.Cron ClotoCore.Encoding
open ClotoCore.Lookup ClotoCore.Transition

/-! ## The kernel -/

/-- `ConversationRow` -/
structure ConversationRow where
  id : String
  agentId : String
  userId : String
  title : String
  createdAt : Int
  updatedAt : Int
  archivedAt : Option Int
  deriving DecidableEq

/-- A row of `trusted_commands`. -/
structure TrustedCommand where
  agentId : String
  pattern : String
  deriving DecidableEq

/-- A command name that is trusted for an agent until the kernel ends. -/
structure SessionTrust where
  agentId : String
  commandName : String
  deriving DecidableEq

/-- An entry of `AgentTokenStore`, with its token. -/
structure Entry where
  token : Nat
  agentId : String
  expiresAt : Int
  deriving DecidableEq

/-- The tables, the maps in memory, and the files there are. -/
structure State where
  agents : AgentTable
  chatMessages : List ChatMessageRow
  conversations : List ConversationRow
  accessRows : List AccessControlEntry
  argumentRules : List ArgumentRuleRow
  trustedCommands : List TrustedCommand
  cronJobs : List CronJobRow
  sessionTrusted : List SessionTrust
  tokens : List Entry
  files : List String
  now : Int

/-- A database and a disk with nothing on them. -/
def State.init : State where
  agents := Keyed.empty AgentRow.id
  chatMessages := []
  conversations := []
  accessRows := []
  argumentRules := []
  trustedCommands := []
  cronJobs := []
  sessionTrusted := []
  tokens := []
  files := []
  now := 0

/-- The configuration and what the kernel calls: `verify_password`, which has no answer for
a hash that it cannot read, the lower case of a name, and how a time is written. -/
structure Kernel where
  defaultAgentId : String
  verifyPassword : String → String → Option Bool
  toLowercase : String → String
  rfc3339 : Int → String

/-! ## Creating an agent -/

/-- The body of a request, the outcome of `hash_password`, and the servers for which the
grant is not saved. -/
structure CreateAgentRequest where
  id : Option String
  name : String
  description : String
  defaultEngine : String
  metadata : Option Metadata
  requiredCapabilities : Option (List CapabilityType)
  password : Option String
  hashed : Option String
  unsaved : List String

/-- The answers that are errors. -/
inductive AppError where
  | unauthorized
  | validation (message : String)
  /-- `PermissionDenied` of `AdminAccess` -/
  | permissionDenied
  | invalidHash
  | manager (error : AgentError)
  deriving DecidableEq

namespace CreateAgentRequest

/-- `payload.id`, unless it is blank. -/
def requestedId (request : CreateAgentRequest) : Option String :=
  (request.id.map trim).filter fun given => !given.isEmpty

/-- `AGENT_METADATA_KEY_MAX` and `AGENT_METADATA_VALUE_MAX` -/
def exceeds (entry : String × String) : Bool :=
  200 < entry.1.utf8ByteSize || 5000 < entry.2.utf8ByteSize

/-- The checks of the handler. -/
def check (toLowercase : String → String) (request : CreateAgentRequest) : Except AppError Unit :=
  let metadata := request.metadata.getD (Keyed.empty Prod.fst)
  if request.name.isEmpty ∨ 200 < request.name.utf8ByteSize then
    .error (.validation (s!"Agent name must be 1-200 characters (got {request.name.utf8ByteSize}" ++
      " chars); example: \"my-agent\""))
  else if request.description.isEmpty ∨ 5000 < request.description.utf8ByteSize then
    .error (.validation ("Agent description must be 1-5000 characters " ++
      s!"(got {request.description.utf8ByteSize} chars); example: \"A helpful assistant\""))
  else if 50 < metadata.items.length then
    .error (.validation
      s!"Metadata must have at most 50 key-value pairs (got {metadata.items.length})")
  else
    match metadata.items.find? exceeds with
    | some (key, value) =>
        .error (.validation (s!"Metadata key '{key}' exceeds limits " ++
          s!"(key: {key.utf8ByteSize} chars max 200, value: {value.utf8ByteSize} chars max 5000)"))
    | none =>
        match request.requestedId with
        | some given =>
            if isAgentSlug given then .ok ()
            else .error (.validation (s!"Agent id '{given}' must be lowercase ASCII: " ++
              "a letter or digit, then letters, digits, '_' or '-' (at most 64); " ++
              "example: \"sakura-bot\""))
        | none =>
            if (deriveAgentId toLowercase request.name).isSome then .ok ()
            else .error (.validation (s!"The name '{request.name}' has no ASCII letters or " ++
              "digits, so no id can be taken from it. Send an id as well; the name the agent " ++
              "is shown under does not change."))

/-- The servers that are granted: the engine, and the memory server if one is named. -/
def serversToGrant (request : CreateAgentRequest) : List String :=
  request.defaultEngine ::
    (((request.metadata.getD (Keyed.empty Prod.fst)).value "preferred_memory").filter
      fun server => !server.isEmpty).toList

/-- What the manager is given. -/
def new (now : Int) (request : CreateAgentRequest) : NewAgent where
  id := request.requestedId
  name := request.name
  description := request.description
  defaultEngine := request.defaultEngine
  metadata := request.metadata.getD (Keyed.empty Prod.fst)
  requiredCapabilities := request.requiredCapabilities.getD [.reasoning, .memory]
  password := request.password
  hashed := request.hashed
  now := now

/-- The grants that are written for a new agent. -/
def grants (grantedAt agentId : String) (request : CreateAgentRequest) :
    List AccessControlEntry :=
  (request.serversToGrant.filter fun serverId => !request.unsaved.contains serverId).map
    fun serverId =>
      { entryType := .serverGrant
        agentId
        serverId
        toolName := none
        permission := .allow
        grantedBy := some "system"
        grantedAt
        expiresAt := none
        justification := some "Auto-granted during agent creation"
        metadata := none }

end CreateAgentRequest

/-- The handler `create_agent` behind the check of the key, with the id it answers. -/
def State.createAgent (kernel : Kernel) (state : State) (request : CreateAgentRequest) :
    Except AppError (String × State) := do
  request.check kernel.toLowercase
  match state.agents.createAgentWithId kernel.toLowercase (request.new state.now) with
  | .error error => .error (.manager error)
  | .ok (row, agents) =>
      return (row.id, { state with
        agents
        accessRows := state.accessRows ++ request.grants (kernel.rfc3339 state.now) row.id })

/-! ## Deleting an agent -/

/-- The statements of a delete. -/
inductive Statement where
  | getPasswordHash
  | getAgentConfig
  | getAvatarPath
  | getVrmPath
  | begin
  | deleteChatMessages
  | deleteAccess
  | deleteTrustedCommands
  | deleteAgent
  | commit
  deriving DecidableEq

/-- A request, whether it has the admin key, and what fails: statements, and removals of
files. -/
structure DeleteAgentRequest where
  id : String
  authorized : Bool
  password : Option String
  failing : List Statement
  stuck : List String

namespace State

/-- `verify_agent_password`, for a delete. -/
def verifyAgentPassword (kernel : Kernel) (state : State) (request : DeleteAgentRequest) :
    Except AppError Unit :=
  if request.failing.contains .getPasswordHash then .error (.manager .database)
  else
    match state.agents.getPasswordHash request.id with
    | .error error => .error (.manager error)
    | .ok none => .ok ()
    | .ok (some hash) =>
        match request.password with
        | none => .error (.validation "Password required to delete this agent")
        | some password =>
            match kernel.verifyPassword password hash with
            | none => .error .invalidHash
            | some false => .error .permissionDenied
            | some true => .ok ()

/-- The memory server that is told afterwards. -/
def preferredMemory (state : State) (request : DeleteAgentRequest) : Option String :=
  if request.failing.contains .getAgentConfig then none
  else
    match state.agents.getAgentConfig 0 state.now request.id with
    | .error _ => none
    | .ok (agent, _) =>
        (agent.metadata.value "preferred_memory").filter fun server => !server.isEmpty

/-- `remove_file`, whose outcome is ignored. -/
def removeFile (state : State) (request : DeleteAgentRequest) (path : String) : State :=
  if request.stuck.contains path then state
  else { state with files := state.files.filter fun file => file != path }

/-- The file of a path that is read from the row, if it can be read. -/
def removeRead (state : State) (request : DeleteAgentRequest) (statement : Statement)
    (path : Except AgentError (Option String)) : State :=
  match path with
  | .ok (some path) =>
      if request.failing.contains statement then state else state.removeFile request path
  | _ => state

/-- The two files of the agent are removed. -/
def removeFiles (state : State) (request : DeleteAgentRequest) : State :=
  let withoutAvatar :=
    state.removeRead request .getAvatarPath (state.agents.getAvatarPath request.id)
  withoutAvatar.removeRead request .getVrmPath (withoutAvatar.agents.getVrmPath request.id)

/-- The rows of an agent without references to it: `DELETE FROM agents` takes the cron jobs
along, and fails where a conversation refers to the row. -/
def deleteRows (state : State) (agentId : String) : State :=
  { state with
    chatMessages := dropOwned ChatMessageRow.agentId agentId state.chatMessages
    accessRows := dropOwned AccessControlEntry.agentId agentId state.accessRows
    trustedCommands := dropOwned TrustedCommand.agentId agentId state.trustedCommands
    cronJobs := dropOwned CronJobRow.agentId agentId state.cronJobs
    agents := state.agents.remove agentId }

/-- The statements of the transaction. -/
def transaction : List Statement :=
  [.begin, .deleteChatMessages, .deleteAccess, .deleteTrustedCommands, .deleteAgent, .commit]

/-- The transaction of `delete_agent`, which is rolled back where it does not come to its
end. -/
def runTransaction (state : State) (request : DeleteAgentRequest) : Except AgentError State :=
  if transaction.any request.failing.contains then .error .database
  else
    match state.agents.get request.id with
    | none => .error (.agentNotFound request.id)
    | some _ =>
        if state.conversations.any fun row => row.agentId == request.id then .error .database
        else .ok (state.deleteRows request.id)

/-- `AgentManager::delete_agent` -/
def managerDeleteAgent (kernel : Kernel) (state : State) (request : DeleteAgentRequest) :
    Except AgentError Unit × State :=
  if request.id = kernel.defaultAgentId then (.error (.defaultAgent request.id), state)
  else
    let state := state.removeFiles request
    match state.runTransaction request with
    | .error error => (.error error, state)
    | .ok next => (.ok (), next)

/-- The handler `delete_agent`: on success the memory server that is told. -/
def deleteAgent (kernel : Kernel) (state : State) (request : DeleteAgentRequest) :
    Except AppError (Option String) × State :=
  if request.authorized = false then (.error .unauthorized, state)
  else if request.id = kernel.defaultAgentId then
    (.error (.validation s!"Cannot delete the default agent '{request.id}'"), state)
  else
    match state.verifyAgentPassword kernel request with
    | .error error => (.error error, state)
    | .ok () =>
        let memoryServer := state.preferredMemory request
        match state.managerDeleteAgent kernel request with
        | (.error error, next) => (.error (.manager error), next)
        | (.ok (), next) => (.ok memoryServer, next)

end State

/-! ## The kernel at work -/

/-- What the kernel does with agents and with what belongs to them. -/
inductive Operation where
  | wait (elapsed : Nat)
  | createAgent (request : CreateAgentRequest)
  | deleteAgent (request : DeleteAgentRequest)
  /-- The file is written, and then `set_avatar`. -/
  | uploadAvatar (agentId path : String) (description : Option String)
  | mint (token : Nat) (agentId : String) (ttl : Nat)
  /-- A `Trust` decision on a command name. -/
  | trust (agentId commandName : String)
  | addTrustedCommand (agentId pattern : String)
  | putArgumentRules (agentId : String) (rules : List ArgumentRule)
  | saveAccessControlEntry (entry : AccessControlEntry)
  | createCronJob (job : CronJobRow)
  | createConversation (row : ConversationRow)
  | saveChatMessage (row : ChatMessageRow)

namespace State

/-- An insertion of a row that refers to an agent. -/
def ifAgent (state : State) (agentId : String) (inserted : State) : State :=
  if (state.agents.get agentId).isSome then inserted else state

/-- The state behind an operation.  One that is refused leaves it as it is. -/
def operate (kernel : Kernel) (state : State) : Operation → State
  | .wait elapsed => { state with now := state.now + elapsed }
  | .createAgent request =>
      match state.createAgent kernel request with
      | .ok (_, next) => next
      | .error _ => state
  | .deleteAgent request => (state.deleteAgent kernel request).2
  | .uploadAvatar agentId path description =>
      state.ifAgent agentId { state with
        files := if state.files.contains path then state.files else state.files ++ [path]
        agents := state.agents.update agentId (·.setAvatar path description state.now) }
  | .mint token agentId ttl =>
      { state with
        tokens := (state.tokens.filter fun entry => state.now < entry.expiresAt) ++
          [⟨token, agentId, state.now + ttl⟩] }
  | .trust agentId commandName =>
      if state.sessionTrusted.contains ⟨agentId, commandName⟩ then state
      else { state with sessionTrusted := state.sessionTrusted ++ [⟨agentId, commandName⟩] }
  | .addTrustedCommand agentId pattern =>
      if state.trustedCommands.contains ⟨agentId, pattern⟩ then state
      else { state with trustedCommands := state.trustedCommands ++ [⟨agentId, pattern⟩] }
  | .putArgumentRules agentId rules =>
      { state with
        argumentRules := dropOwned ArgumentRuleRow.agentId agentId state.argumentRules ++
          rules.map fun rule =>
            { agentId
              serverId := rule.serverId
              toolName := rule.toolName.getD ""
              equals := .ok rule.equals
              required := .ok rule.required } }
  | .saveAccessControlEntry entry => { state with accessRows := state.accessRows ++ [entry] }
  | .createCronJob job =>
      state.ifAgent job.agentId { state with cronJobs := state.cronJobs ++ [job] }
  | .createConversation row =>
      state.ifAgent row.agentId { state with conversations := state.conversations ++ [row] }
  | .saveChatMessage row =>
      state.ifAgent row.agentId { state with chatMessages := state.chatMessages ++ [row] }

end State

/-- Every operation is answered. -/
def step (kernel : Kernel) : Action State Operation :=
  fun state operation => some (state.operate kernel operation)

/-! ## Authority -/

/-- What acts for an agent. -/
structure Authority where
  access : List AccessControlEntry
  rules : List ArgumentRuleRow
  trusted : List TrustedCommand
  session : List SessionTrust
  tokens : List Entry
  cronJobs : List CronJobRow

/-- Nothing but some grants. -/
def Authority.ofGrants (grants : List AccessControlEntry) : Authority where
  access := grants
  rules := []
  trusted := []
  session := []
  tokens := []
  cronJobs := []

/-- The rows of an agent, its trusted names, and its tokens that can still be resolved. -/
def State.authority (state : State) (agentId : String) : Authority where
  access := ownedBy AccessControlEntry.agentId agentId state.accessRows
  rules := ownedBy ArgumentRuleRow.agentId agentId state.argumentRules
  trusted := ownedBy TrustedCommand.agentId agentId state.trustedCommands
  session := ownedBy SessionTrust.agentId agentId state.sessionTrusted
  tokens := ownedBy Entry.agentId agentId <|
    state.tokens.filter fun entry => state.now < entry.expiresAt
  cronJobs := ownedBy CronJobRow.agentId agentId state.cronJobs

/-- The rows of an agent are the same. -/
structure SameRows (state next : State) (agentId : String) : Prop where
  agent : next.agents.get agentId = state.agents.get agentId
  chatMessages : ownedBy ChatMessageRow.agentId agentId next.chatMessages =
    ownedBy ChatMessageRow.agentId agentId state.chatMessages
  conversations : ownedBy ConversationRow.agentId agentId next.conversations =
    ownedBy ConversationRow.agentId agentId state.conversations
  authority : next.authority agentId = state.authority agentId

/-- An agent is gone with all that acts for it; one that is created later under its id, when
nothing else has been written for the id, has the grants of its creation and nothing else;
and no other agent is concerned. -/
structure Gone (kernel : Kernel) (state next : State) (agentId : String) : Prop where
  absent : next.agents.get agentId = none
  powerless : next.authority agentId = .ofGrants []
  renewed : ∀ (later : State) (request : CreateAgentRequest) (created : State),
    later.authority agentId = next.authority agentId →
    later.createAgent kernel request = .ok (agentId, created) →
      created.authority agentId =
        .ofGrants (request.grants (kernel.rfc3339 later.now) agentId)
  others : ∀ other, other ≠ agentId → SameRows state next other

/-- What a delete promises: the agent is gone, or nothing has changed. -/
def Promised (kernel : Kernel) (state : State) : Operation → Prop
  | .deleteAgent request =>
      match state.deleteAgent kernel request with
      | (.ok _, next) => Gone kernel state next request.id
      | (.error _, next) => next = state
  | _ => True

/-! ## When the promise is kept -/

/-- A request that gets as far as the files of the agent. -/
def Passes (kernel : Kernel) (state : State) (request : DeleteAgentRequest) : Prop :=
  request.authorized = true ∧ request.id ≠ kernel.defaultAgentId ∧
    state.verifyAgentPassword kernel request = .ok ()

/-- No statement of the transaction fails, and no conversation refers to the agent. -/
def Completes (state : State) (request : DeleteAgentRequest) : Prop :=
  (∀ statement ∈ State.transaction, statement ∉ request.failing) ∧
    ∀ row ∈ state.conversations, row.agentId ≠ request.id

/-- What the transaction leaves alone does not concern the agent. -/
structure Untrusted (state : State) (agentId : String) : Prop where
  rules : ∀ row ∈ state.argumentRules, row.agentId ≠ agentId
  session : ∀ trust ∈ state.sessionTrusted, trust.agentId ≠ agentId
  tokens : ∀ entry ∈ state.tokens, state.now < entry.expiresAt → entry.agentId ≠ agentId

/-- No file is there that is removed before the transaction. -/
def Fileless (state : State) (request : DeleteAgentRequest) : Prop :=
  ∀ row ∈ state.agents.get request.id,
    (Statement.getAvatarPath ∉ request.failing → ∀ path ∈ row.metadata.value "avatar_path",
      path ∈ state.files → path ∈ request.stuck) ∧
    (Statement.getVrmPath ∉ request.failing → ∀ path ∈ row.metadata.value "vrm_path",
      path ∈ state.files → path ∈ request.stuck)

/-- A delete that gets as far as the files concerns an agent without argument rules,
session trust and live tokens if it comes to its end, and one without files there if it
does not. -/
def Kept (kernel : Kernel) (state : State) : Operation → Prop
  | .deleteAgent request =>
      Passes kernel state request →
        (Completes state request → Untrusted state request.id) ∧
        (¬ Completes state request → Fileless state request)
  | _ => True

/-! ## The files -/

variable {kernel : Kernel} {state : State} {request : DeleteAgentRequest}

theorem removeFile_eq_self_iff {path : String} :
    state.removeFile request path = state ↔ (path ∈ state.files → path ∈ request.stuck) := by
  unfold State.removeFile
  cases stuck : request.stuck.contains path with
  | true =>
      have held : path ∈ request.stuck := by simpa using stuck
      simp [held]
  | false =>
      have free : path ∉ request.stuck := by simpa using stuck
      rw [if_neg Bool.false_ne_true]
      constructor
      · intro same there
        have kept := List.filter_eq_self.mp (congrArg State.files same) path there
        simp at kept
      · intro absent
        have kept : (state.files.filter fun file => file != path) = state.files := by
          apply List.filter_eq_self.mpr
          intro file mem
          have differ : file ≠ path := by
            rintro rfl
            exact free (absent mem)
          simpa using differ
        rw [kept]

/-- Files are removed, and nothing else changes. -/
def Trimmed (state next : State) : Prop :=
  next.files.Sublist state.files ∧ next = { state with files := next.files }

theorem Trimmed.refl (state : State) : Trimmed state state :=
  ⟨List.Sublist.refl _, rfl⟩

theorem trimmed_removeFile {path : String} : Trimmed state (state.removeFile request path) := by
  unfold State.removeFile
  split
  · exact .refl state
  · exact ⟨List.filter_sublist, rfl⟩

theorem trimmed_removeRead {statement : Statement} {path : Except AgentError (Option String)} :
    Trimmed state (state.removeRead request statement path) := by
  unfold State.removeRead
  split
  · split
    · exact .refl state
    · exact trimmed_removeFile
  · exact .refl state

theorem Trimmed.trans {middle next : State} (first : Trimmed state middle)
    (second : Trimmed middle next) : Trimmed state next := by
  refine ⟨second.1.trans first.1, ?_⟩
  rw [second.2, first.2]

/-- What is trimmed back to a state was never trimmed. -/
theorem Trimmed.eq_of_eq {middle next : State} (first : Trimmed state middle)
    (second : Trimmed middle next) (same : next = state) : middle = state := by
  subst same
  rw [first.2, first.1.antisymm second.1]

theorem trimmed_removeFiles : Trimmed state (state.removeFiles request) :=
  trimmed_removeRead.trans trimmed_removeRead

theorem removeRead_eq_self_iff {statement : Statement} {path : Option String} :
    state.removeRead request statement (.ok path) = state ↔
      (statement ∉ request.failing → ∀ file ∈ path, file ∈ state.files →
        file ∈ request.stuck) := by
  cases path with
  | none => simp [State.removeRead]
  | some file =>
      by_cases fails : statement ∈ request.failing
      · simp [State.removeRead, fails]
      · simp [State.removeRead, fails, removeFile_eq_self_iff]

/-- Removing the files of an agent changes nothing exactly if none of them is there. -/
theorem removeFiles_eq_self_iff {row : AgentRow}
    (found : state.agents.get request.id = some row) :
    state.removeFiles request = state ↔ Fileless state request := by
  have avatarPath : state.agents.getAvatarPath request.id =
      .ok (row.metadata.value "avatar_path") := by
    rw [AgentTable.getAvatarPath, found]
    rfl
  have vrmPath : state.agents.getVrmPath request.id = .ok (row.metadata.value "vrm_path") := by
    rw [AgentTable.getVrmPath, found]
    rfl
  have fileless : Fileless state request ↔
      state.removeRead request .getAvatarPath (state.agents.getAvatarPath request.id) = state ∧
        state.removeRead request .getVrmPath (state.agents.getVrmPath request.id) = state := by
    rw [avatarPath, vrmPath, removeRead_eq_self_iff, removeRead_eq_self_iff, Fileless, found]
    simp only [Option.mem_some_iff, forall_eq']
  rw [fileless]
  constructor
  · intro same
    have first := trimmed_removeRead.eq_of_eq trimmed_removeRead same
    refine ⟨first, ?_⟩
    rw [State.removeFiles, first] at same
    exact same
  · rintro ⟨avatar, vrm⟩
    rw [State.removeFiles, avatar]
    exact vrm

/-! ## The transaction -/

theorem runTransaction_eq {row : AgentRow} (found : state.agents.get request.id = some row) :
    (Completes state request → state.runTransaction request = .ok (state.deleteRows request.id)) ∧
      (¬ Completes state request → state.runTransaction request = .error .database) := by
  have failing : State.transaction.any request.failing.contains = true ↔
      ¬ ∀ statement ∈ State.transaction, statement ∉ request.failing := by
    simp
  have referred : (state.conversations.any fun row => row.agentId == request.id) = true ↔
      ¬ ∀ row ∈ state.conversations, row.agentId ≠ request.id := by
    simp
  unfold State.runTransaction Completes
  rw [found]
  constructor
  · rintro ⟨running, unreferred⟩
    rw [if_neg (mt failing.mp (not_not_intro running)),
      if_neg (mt referred.mp (not_not_intro unreferred))]
  · intro stops
    by_cases running : ∀ statement ∈ State.transaction, statement ∉ request.failing
    · have referring := referred.mpr fun unreferred => stops ⟨running, unreferred⟩
      rw [if_neg (mt failing.mp (not_not_intro running)), if_pos referring]
    · rw [if_pos (failing.mpr running)]

/-- A request that does not get as far as the files changes nothing. -/
theorem deleteAgent_of_not_passes (refused : ¬ Passes kernel state request) :
    ∃ error, state.deleteAgent kernel request = (.error error, state) := by
  unfold State.deleteAgent
  cases authorized : request.authorized with
  | false => exact ⟨_, if_pos rfl⟩
  | true =>
      rw [if_neg (by decide)]
      by_cases isDefault : request.id = kernel.defaultAgentId
      · exact ⟨_, if_pos isDefault⟩
      · rw [if_neg isDefault]
        cases verified : state.verifyAgentPassword kernel request with
        | error error => exact ⟨error, rfl⟩
        | ok => exact absurd ⟨authorized, isDefault, verified⟩ refused

theorem deleteAgent_of_passes (passes : Passes kernel state request) :
    state.deleteAgent kernel request =
      match (state.removeFiles request).runTransaction request with
      | .error error => (.error (.manager error), state.removeFiles request)
      | .ok next => (.ok (state.preferredMemory request), next) := by
  rcases passes with ⟨authorized, other, verified⟩
  simp only [State.deleteAgent, authorized, other, verified, State.managerDeleteAgent,
    Bool.true_eq_false, if_false]
  cases (state.removeFiles request).runTransaction request <;> rfl

/-- The row of an agent whose password is verified is there. -/
theorem Passes.found (passes : Passes kernel state request) :
    ∃ row, state.agents.get request.id = some row := by
  rcases passes with ⟨-, -, verified⟩
  cases found : state.agents.get request.id with
  | some row => exact ⟨row, rfl⟩
  | none =>
      unfold State.verifyAgentPassword AgentTable.getPasswordHash at verified
      rw [found] at verified
      split at verified <;> cases verified

/-! ## What is gone -/

variable {agentId : String}

/-- What the transaction leaves of the authority of the agent. -/
theorem authority_deleteRows :
    (state.deleteRows agentId).authority agentId =
      { state.authority agentId with access := [], trusted := [], cronJobs := [] } := by
  simp only [State.authority, State.deleteRows, ownedBy_dropOwned_self]
  rfl

theorem authority_eq_ofGrants_iff :
    (state.deleteRows agentId).authority agentId = .ofGrants [] ↔ Untrusted state agentId := by
  rw [authority_deleteRows, Authority.ofGrants, State.authority]
  simp only [Authority.mk.injEq, true_and, and_true, ownedBy_eq_nil_iff]
  constructor
  · rintro ⟨rules, session, tokens⟩
    refine ⟨rules, session, ?_⟩
    intro entry mem live
    exact tokens entry (List.mem_filter.mpr ⟨mem, by simpa using live⟩)
  · intro untrusted
    refine ⟨untrusted.rules, untrusted.session, ?_⟩
    intro entry mem
    rcases List.mem_filter.mp mem with ⟨here, live⟩
    exact untrusted.tokens entry here (by simpa using live)

theorem sameRows_deleteRows {other : String} (differ : other ≠ agentId) :
    SameRows state (state.deleteRows agentId) other := by
  constructor
  · apply Option.ext
    intro row
    simp only [Keyed.get_eq_some_iff, State.deleteRows, Keyed.mem_remove_iff]
    constructor
    · rintro ⟨⟨mem, -⟩, here⟩
      exact ⟨mem, here⟩
    · rintro ⟨mem, here⟩
      exact ⟨⟨mem, by rwa [here]⟩, here⟩
  · exact ownedBy_dropOwned differ
  · rfl
  · simp only [State.authority, State.deleteRows, ownedBy_dropOwned differ]
    rfl

/-- What a creation adds to the authority of the new agent. -/
theorem authority_createAgent {later created : State} {request : CreateAgentRequest}
    (isCreated : later.createAgent kernel request = .ok (agentId, created)) :
    created.authority agentId =
      { later.authority agentId with
        access := (later.authority agentId).access ++
          request.grants (kernel.rfc3339 later.now) agentId } := by
  unfold State.createAgent at isCreated
  cases checked : request.check kernel.toLowercase with
  | error error =>
      rw [checked] at isCreated
      cases isCreated
  | ok =>
      cases inserted : later.agents.createAgentWithId kernel.toLowercase
          (request.new later.now) with
      | error error =>
          rw [checked, inserted] at isCreated
          cases isCreated
      | ok made =>
          rcases made with ⟨row, agents⟩
          rw [checked, inserted] at isCreated
          cases isCreated
          have granted : ownedBy AccessControlEntry.agentId row.id
              (request.grants (kernel.rfc3339 later.now) row.id) =
                request.grants (kernel.rfc3339 later.now) row.id := by
            rw [ownedBy_eq_self_iff]
            intro entry mem
            rcases List.mem_map.mp mem with ⟨serverId, -, rfl⟩
            rfl
          simp only [State.authority, ownedBy_append, granted]

/-- The rows are gone with all that acts for the agent exactly if nothing did that the
transaction leaves alone. -/
theorem gone_iff {files : List String} :
    Gone kernel state ({ state with files }.deleteRows agentId) agentId ↔
      Untrusted state agentId := by
  constructor
  · intro gone
    exact authority_eq_ofGrants_iff.mp gone.powerless
  · intro untrusted
    have powerless := authority_eq_ofGrants_iff.mpr untrusted
    refine ⟨?_, powerless, ?_, ?_⟩
    · rw [Option.eq_none_iff_forall_ne_some]
      intro row found
      rcases Keyed.get_eq_some_iff.mp found with ⟨mem, here⟩
      exact (Keyed.mem_remove_iff.mp mem).2 here
    · intro later request created same isCreated
      have before : later.authority agentId = .ofGrants [] := same.trans powerless
      rw [authority_createAgent isCreated, before]
      rfl
    · intro other differ
      have same : SameRows state (state.deleteRows agentId) other := sameRows_deleteRows differ
      exact ⟨same.agent, same.chatMessages, same.conversations, same.authority⟩

/-- A delete keeps its promise exactly if it meets the condition. -/
theorem promised_iff_kept (operation : Operation) :
    Promised kernel state operation ↔ Kept kernel state operation := by
  cases operation with
  | deleteAgent request =>
      simp only [Promised, Kept]
      by_cases passes : Passes kernel state request
      · rcases passes.found with ⟨row, found⟩
        have trimmed : Trimmed state (state.removeFiles request) := trimmed_removeFiles
        have still : (state.removeFiles request).agents.get request.id = some row := by
          rw [trimmed.2]
          exact found
        have same : Completes (state.removeFiles request) request ↔ Completes state request := by
          rw [trimmed.2]
          exact Iff.rfl
        have ⟨committed, rolledBack⟩ := runTransaction_eq still
        rw [deleteAgent_of_passes passes]
        by_cases completes : Completes state request
        · rw [committed (same.mpr completes)]
          simp only [passes, completes, not_true_eq_false, forall_const, false_implies, and_true]
          rw [trimmed.2]
          exact gone_iff
        · rw [rolledBack (mt same.mp completes)]
          simp only [passes, completes, not_false_eq_true, forall_const, false_implies, true_and]
          exact removeFiles_eq_self_iff found
      · rcases deleteAgent_of_not_passes passes with ⟨error, refused⟩
        rw [refused]
        simp [passes]
  | _ => exact Iff.rfl

/-- In every run, from every state, each delete keeps its promise exactly if each meets the
condition. -/
theorem promised_along_iff (kernel : Kernel) (state : State) (operations : List Operation) :
    Along (step kernel) (Promised kernel) state operations ↔
      Along (step kernel) (Kept kernel) state operations := by
  constructor
  · intro along
    exact along.mono fun _ operation promised => (promised_iff_kept operation).mp promised
  · intro along
    exact along.mono fun _ operation kept => (promised_iff_kept operation).mpr kept

/-! ## What stays behind -/

/-- A kernel on which no password is right. -/
def kernelAtStart : Kernel where
  defaultAgentId := "agent.cloto_default"
  verifyPassword := fun _ _ => none
  toLowercase := toAsciiLowercase
  rfc3339 := fun _ => "1970-01-01T00:00:00+00:00"

/-- The agent `A` is made, with an id and without a password. -/
def creation : CreateAgentRequest where
  id := some "a"
  name := "A"
  description := "an agent"
  defaultEngine := "engine"
  metadata := none
  requiredCapabilities := none
  password := none
  hashed := none
  unsaved := []

/-- Its deletion, in which nothing fails. -/
def deletion : DeleteAgentRequest where
  id := "agent.a"
  authorized := true
  password := none
  failing := []
  stuck := []

/-- A command name is trusted for the session, a token is minted, and an argument rule is
set. -/
def trustedRun : List Operation :=
  [.createAgent creation, .trust "agent.a" "rm", .mint 0 "agent.a" 3600000,
    .putArgumentRules "agent.a" [⟨"files", none, [], ["path"]⟩]]

/-- An avatar is uploaded, and there is a conversation. -/
def pictured : List Operation :=
  [.createAgent creation, .uploadAvatar "agent.a" "avatars/agent.a.png" none,
    .createConversation ⟨"c", "agent.a", "default", "", 0, 0, none⟩]

/-- The state behind operations on the empty one. -/
def after (operations : List Operation) : State :=
  operations.foldl (State.operate kernelAtStart) State.init

theorem promised_last {operations : List Operation} {operation : Operation}
    (along : Along (step kernelAtStart) (Promised kernelAtStart) State.init
      (operations ++ [operation])) :
    Kept kernelAtStart (after operations) operation := by
  have ran : run (step kernelAtStart) State.init operations = some (after operations) :=
    run_eq_some_foldl (fun _ _ => rfl) State.init operations
  exact (promised_iff_kept operation).mp (along.of_run ran).1

/-- A delete leaves the trust of the agent to the next one of its id, or fails and has
removed the file of the avatar. -/
theorem trust_left_and_file_lost :
    (((after (trustedRun ++ [.deleteAgent deletion, .createAgent creation])).authority
        "agent.a").session = [⟨"agent.a", "rm"⟩] ∧
      ¬ Along (step kernelAtStart) (Promised kernelAtStart) State.init
        (trustedRun ++ [.deleteAgent deletion])) ∧
    ((after pictured).deleteAgent kernelAtStart deletion).1 = .error (.manager .database) ∧
      (after pictured).files = ["avatars/agent.a.png"] ∧
      ((after pictured).deleteAgent kernelAtStart deletion).2.files = [] ∧
      ¬ Along (step kernelAtStart) (Promised kernelAtStart) State.init
        (pictured ++ [.deleteAgent deletion]) := by
  have passes : ∀ operations ∈ [trustedRun, pictured],
      ((after operations).verifyAgentPassword kernelAtStart deletion).toOption.isSome = true := by
    decide +kernel
  have verified : ∀ operations ∈ [trustedRun, pictured],
      Passes kernelAtStart (after operations) deletion := by
    intro operations mem
    refine ⟨rfl, by decide, ?_⟩
    cases verified : (after operations).verifyAgentPassword kernelAtStart deletion with
    | ok => rfl
    | error error =>
        have failed := passes operations mem
        rw [verified] at failed
        cases failed
  refine ⟨⟨by decide +kernel, ?_⟩, by decide +kernel, by decide +kernel, by decide +kernel, ?_⟩
  · intro along
    have kept := promised_last along (verified trustedRun List.mem_cons_self)
    have completes : Completes (after trustedRun) deletion := by
      refine ⟨fun _ _ => List.not_mem_nil, ?_⟩
      have none : (after trustedRun).conversations = [] := by decide +kernel
      rw [none]
      intro row mem
      cases mem
    have trust : ⟨"agent.a", "rm"⟩ ∈ (after trustedRun).sessionTrusted := by decide +kernel
    exact (kept.1 completes).session _ trust rfl
  · intro along
    have kept := promised_last along (verified pictured (by simp))
    have stops : ¬ Completes (after pictured) deletion := by
      rintro ⟨-, unreferred⟩
      have row : (after pictured).conversations.any (·.agentId == deletion.id) = true := by
        decide +kernel
      rcases List.any_eq_true.mp row with ⟨row, mem, here⟩
      exact unreferred row mem (eq_of_beq here)
    have stored : ((after pictured).agents.get "agent.a").bind
        (fun row => row.metadata.value "avatar_path") = some "avatars/agent.a.png" := by
      decide +kernel
    rcases Option.bind_eq_some_iff.mp stored with ⟨row, found, path⟩
    have there : "avatars/agent.a.png" ∈ (after pictured).files := by decide +kernel
    have stuck := (kept.2 stops row found).1 List.not_mem_nil _ path there
    cases stuck

end ClotoCore.Agents.Deletion
