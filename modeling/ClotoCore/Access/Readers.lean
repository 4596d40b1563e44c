import ClotoCore.Access.Rows
import ClotoCore.Json.Value
import Mathlib.Data.List.Sort
import Mathlib.Data.String.Basic

/-!
# Other readers of the access rows

The ownership check of the kernel tools and the reverse lookup of a server read
the rows with their own filters.  They look neither at the expiry nor at the
tool name, and count an Allow that stands behind a Deny.
-/

namespace ClotoCore.Access

open ClotoCore.Lookup

/-! ## Readers -/

/-- The text of an entry type in its column. -/
def EntryType.text : EntryType → String
  | .capability => "capability"
  | .serverGrant => "server_grant"
  | .toolGrant => "tool_grant"

/-- An order by columns, as texts. -/
def byColumns (columns : AccessControlEntry → List String) (first second : AccessControlEntry) :
    Bool :=
  decide (columns first ≤ columns second)

/-- The tool name as a column: a null comes first. -/
def AccessControlEntry.toolColumn (entry : AccessControlEntry) : List String :=
  entry.toolName.toList

/-- `get_access_entries_for_server` -/
def getAccessEntriesForServer (rows : List AccessControlEntry) (serverId : String) :
    List AccessControlEntry :=
  (rows.filter fun entry => entry.serverId == serverId).mergeSort <|
    byColumns fun entry => [entry.agentId, entry.entryType.text] ++ entry.toolColumn

/-- `get_access_entries_for_agent` -/
def getAccessEntriesForAgent (rows : List AccessControlEntry) (agentId : String) :
    List AccessControlEntry :=
  (rows.filter fun entry => entry.agentId == agentId).mergeSort <|
    byColumns fun entry => [entry.serverId, entry.entryType.text] ++ entry.toolColumn

/-- The rows that the readers count. -/
def isAllowRow (entry : AccessControlEntry) : Bool :=
  entry.entryType == .serverGrant && entry.permission == .allow

/-- `get_agents_for_server` -/
def getAgentsForServer (rows : List AccessControlEntry) (serverId : String) : List String :=
  ((getAccessEntriesForServer rows serverId).filter isAllowRow).map AccessControlEntry.agentId

/-- `granted_servers`: nobody holds nothing. -/
def grantedServers (rows : List AccessControlEntry) (args : Json.Value) : List String :=
  match args.getStr "agent_id" with
  | none => []
  | some agentId =>
      ((getAccessEntriesForAgent rows agentId).filter isAllowRow).map AccessControlEntry.serverId

/-- `missing_tool_arg` -/
def missingToolArg (name : String) : String :=
  s!"Missing required parameter: {name}"

/-- `require_server_access` -/
def requireServerAccess (rows : List AccessControlEntry) (args : Json.Value) (serverId : String) :
    Except String Unit :=
  match args.getStr "agent_id" with
  | none => .error (missingToolArg "agent_id")
  | some agentId =>
      if (grantedServers rows args).contains serverId then .ok ()
      else
        .error <|
          s!"Access denied: agent '{agentId}' has no grant for server " ++
            s!"'{serverId}' (bug-441 ownership check)"

/-! ## What the readers count -/

/-- A stored Allow of a server, expired or not, with or without a tool name. -/
def StoredAllow (rows : List AccessControlEntry) (agentId serverId : String) : Prop :=
  ∃ entry ∈ rows, entry.agentId = agentId ∧ entry.serverId = serverId ∧
    entry.entryType = .serverGrant ∧ entry.permission = .allow

/-- An unexpired Allow of a server without a tool name, and no unexpired Deny of it
before it in the scan. -/
def EffectiveAllow (clock : Clock) (rows : List AccessControlEntry) (agentId serverId : String) :
    Prop :=
  ∃ before entry after, rows = before ++ entry :: after ∧
    isServerGrant clock agentId serverId entry = true ∧ entry.permission = .allow ∧
    ∀ other ∈ before, isServerGrant clock agentId serverId other = true →
      other.permission = .allow

/-- The readers agree with the lookup of a call on one agent and one server. -/
structure ReadersAgree (clock : Clock) (rows : List AccessControlEntry) (args : Json.Value)
    (agentId serverId : String) : Prop where
  granted : serverId ∈ grantedServers rows args ↔
    explicitServerGrant clock rows agentId serverId = some .allow
  required : requireServerAccess rows args serverId = .ok () ↔
    explicitServerGrant clock rows agentId serverId = some .allow
  agents : agentId ∈ getAgentsForServer rows serverId ↔
    explicitServerGrant clock rows agentId serverId = some .allow

section Reading

variable {clock : Clock} {rows : List AccessControlEntry} {args : Json.Value}
  {agentId serverId : String}

theorem mem_getAgentsForServer_iff :
    agentId ∈ getAgentsForServer rows serverId ↔ StoredAllow rows agentId serverId := by
  simp only [getAgentsForServer, getAccessEntriesForServer, isAllowRow, StoredAllow, List.mem_map,
    List.mem_filter, List.mem_mergeSort, beq_iff_eq, Bool.and_eq_true]
  constructor
  · rintro ⟨entry, ⟨⟨mem, server⟩, type, allow⟩, agent⟩
    exact ⟨entry, mem, agent, server, type, allow⟩
  · rintro ⟨entry, mem, agent, server, type, allow⟩
    exact ⟨entry, ⟨⟨mem, server⟩, type, allow⟩, agent⟩

theorem mem_grantedServers_iff (named : args.getStr "agent_id" = some agentId) :
    serverId ∈ grantedServers rows args ↔ StoredAllow rows agentId serverId := by
  simp only [grantedServers, named, getAccessEntriesForAgent, isAllowRow, StoredAllow,
    List.mem_map, List.mem_filter, List.mem_mergeSort, beq_iff_eq, Bool.and_eq_true]
  constructor
  · rintro ⟨entry, ⟨⟨mem, agent⟩, type, allow⟩, server⟩
    exact ⟨entry, mem, agent, server, type, allow⟩
  · rintro ⟨entry, mem, agent, server, type, allow⟩
    exact ⟨entry, ⟨⟨mem, agent⟩, type, allow⟩, server⟩

theorem requireServerAccess_eq_ok_iff (named : args.getStr "agent_id" = some agentId) :
    requireServerAccess rows args serverId = .ok () ↔ StoredAllow rows agentId serverId := by
  rw [← mem_grantedServers_iff named]
  simp only [requireServerAccess, named, List.contains_iff_mem]
  split
  · rename_i mem
    exact iff_of_true rfl mem
  · rename_i missing
    exact iff_of_false (nomatch ·) missing

theorem explicitServerGrant_eq_allow_iff :
    explicitServerGrant clock rows agentId serverId = some .allow ↔
      EffectiveAllow clock rows agentId serverId :=
  lookup_eq_some_iff

/-- What answers a call is stored. -/
theorem EffectiveAllow.stored (effective : EffectiveAllow clock rows agentId serverId) :
    StoredAllow rows agentId serverId := by
  rcases effective with ⟨before, entry, after, rfl, answers, allow, -⟩
  rcases isServerGrant_iff.mp answers with ⟨agent, server, type, -, -⟩
  exact ⟨entry, by simp, agent, server, type, allow⟩

end Reading

/-- The readers agree with the lookup of a call exactly if a stored Allow is an
effective one. -/
theorem readersAgree_iff (clock : Clock) (rows : List AccessControlEntry) (args : Json.Value)
    (agentId serverId : String) (named : args.getStr "agent_id" = some agentId) :
    ReadersAgree clock rows args agentId serverId ↔
      (StoredAllow rows agentId serverId → EffectiveAllow clock rows agentId serverId) := by
  constructor
  · intro agree stored
    have counted := mem_getAgentsForServer_iff.mpr stored
    exact explicitServerGrant_eq_allow_iff.mp (agree.agents.mp counted)
  · intro effective
    have same : StoredAllow rows agentId serverId ↔
        explicitServerGrant clock rows agentId serverId = some .allow := by
      rw [explicitServerGrant_eq_allow_iff]
      exact ⟨effective, EffectiveAllow.stored⟩
    constructor
    · exact (mem_grantedServers_iff named).trans same
    · exact (requireServerAccess_eq_ok_iff named).trans same
    · exact mem_getAgentsForServer_iff.trans same

/-! ## A grant that has expired -/

/-- The arguments of a call that names its agent. -/
def argsOf (agentId : String) : Json.Value :=
  .object [("agent_id", .string agentId)]

/-- A grant of one server that expires with the first second of a year. -/
def expiringGrant : AccessControlEntry :=
  { toolGrant .allow with
    entryType := .serverGrant
    toolName := none
    expiresAt := some "2026-01-01 00:00:00" }

/-- A clock that reads the expiry, one second after it. -/
def afterExpiry : Clock where
  datetime text := if text = "2026-01-01 00:00:00" then some 1767225600 else none
  now := 1767225601

theorem readersAgree_iff_expiringGrant :
    ReadersAgree afterExpiry [expiringGrant] (argsOf "agent.a") "agent.a" "files" ↔
      (StoredAllow [expiringGrant] "agent.a" "files" →
        EffectiveAllow afterExpiry [expiringGrant] "agent.a" "files") :=
  readersAgree_iff afterExpiry [expiringGrant] (argsOf "agent.a") "agent.a" "files" (by decide)

/-- The readers agree with the lookup of a call, whatever the rows are. -/
def ReadersAlwaysAgree : Prop :=
  ∀ (clock : Clock) (rows : List AccessControlEntry) (args : Json.Value)
    (agentId serverId : String), args.getStr "agent_id" = some agentId →
      ReadersAgree clock rows args agentId serverId

/-- The expired grant is counted. -/
theorem not_readersAlwaysAgree : ¬ReadersAlwaysAgree := by
  intro always
  have agree := always afterExpiry [expiringGrant] (argsOf "agent.a") "agent.a" "files" (by decide)
  have stored : StoredAllow [expiringGrant] "agent.a" "files" :=
    ⟨expiringGrant, by decide, rfl, rfl, rfl, rfl⟩
  have counted := agree.agents.mp (mem_getAgentsForServer_iff.mpr stored)
  have unanswered : explicitServerGrant afterExpiry [expiringGrant] "agent.a" "files" = none := by
    decide
  rw [unanswered] at counted
  contradiction

end ClotoCore.Access
