import ClotoCore.Access.Rows
import ClotoCore.Encoding.Text
import Mathlib.Data.List.Sort
import Mathlib.Data.String.Basic

/-!
# Replacing the grants of one agent on one server

The handler checks a grant set, deletes the agent's grant rows on the server and
inserts one row for each answer of the set.  What is read back is the set, calls
are answered by it, and nothing else changes.
-/

namespace ClotoCore.Access

open ClotoCore.Lookup

/-! ## Grant sets -/

/-- `ToolGrant` -/
structure ToolGrant where
  toolName : String
  permission : PermissionLevel
  deriving DecidableEq

/-- `ServerGrantSet` -/
structure ServerGrantSet where
  server : Option PermissionLevel
  tools : List ToolGrant
  deriving DecidableEq

/-- The check of the tools of a set, after the names that were seen. -/
def checkTools : List String → List ToolGrant → Except String Unit
  | _, [] => .ok ()
  | seen, grant :: rest =>
      if Encoding.trim grant.toolName = "" then
        .error "tool_name must not be empty; the server-wide answer is `server`"
      else if grant.toolName ∈ seen then
        .error s!"More than one grant for tool '{grant.toolName}'"
      else checkTools (grant.toolName :: seen) rest

/-- The check of `put_agent_server_access` on the body it was sent. -/
def checkGrantSet (set : ServerGrantSet) : Except String Unit :=
  checkTools [] set.tools

/-- The names of the tools that have an answer, each once and in order. -/
def grantedToolNames (clock : Clock) (rows : List AccessControlEntry) (agentId serverId : String) :
    List String :=
  ((rows.filter fun entry =>
      entry.agentId == agentId && entry.serverId == serverId && entry.entryType == .toolGrant
        && unexpired clock entry).filterMap AccessControlEntry.toolName).dedup.mergeSort
    fun first second => decide (first ≤ second)

/-- `agent_grants_on_server` -/
def agentGrantsOnServer (clock : Clock) (rows : List AccessControlEntry)
    (agentId serverId : String) : ServerGrantSet where
  server := explicitServerGrant clock rows agentId serverId
  tools := (grantedToolNames clock rows agentId serverId).filterMap fun toolName =>
    (explicitToolGrant clock rows agentId serverId toolName).map fun permission =>
      ⟨toolName, permission⟩

/-- A row that grants, or denies. -/
def isGrant (entry : AccessControlEntry) : Bool :=
  entry.entryType == .serverGrant || entry.entryType == .toolGrant

/-- The rows that a replacement deletes. -/
def isReplaced (agentId serverId : String) (entry : AccessControlEntry) : Bool :=
  entry.agentId == agentId && entry.serverId == serverId && isGrant entry

/-- The rows that a replacement inserts. -/
def grantRow (agentId serverId grantedBy now : String) (entryType : EntryType)
    (toolName : Option String) (permission : PermissionLevel) : AccessControlEntry where
  entryType := entryType
  agentId := agentId
  serverId := serverId
  toolName := toolName
  permission := permission
  grantedBy := some grantedBy
  grantedAt := now
  expiresAt := none
  justification := none
  metadata := none

/-- The rows of a set. -/
def ServerGrantSet.rows (set : ServerGrantSet) (agentId serverId grantedBy now : String) :
    List AccessControlEntry :=
  (set.server.toList.map (grantRow agentId serverId grantedBy now .serverGrant none)) ++
    set.tools.map fun grant =>
      grantRow agentId serverId grantedBy now .toolGrant (some grant.toolName) grant.permission

/-- `replace_agent_grants_on_server` -/
def replaceAgentGrantsOnServer (rows : List AccessControlEntry) (agentId serverId : String)
    (set : ServerGrantSet) (grantedBy now : String) : List AccessControlEntry :=
  rows.filter (fun entry => !isReplaced agentId serverId entry) ++
    set.rows agentId serverId grantedBy now

/-- `put_agent_server_access`, up to its answer, where `agentExists` and the
default policy are what the database has for the agent and the server. -/
def putAgentServerAccess (agentExists : Bool) (policies : String → Option String)
    (rows : List AccessControlEntry) (agentId serverId : String) (set : ServerGrantSet)
    (now : String) : Except String (List AccessControlEntry) := do
  checkGrantSet set
  if agentExists then
    match policies serverId with
    | none => .error s!"MCP server '{serverId}' not found"
    | some _ => .ok (replaceAgentGrantsOnServer rows agentId serverId set "admin" now)
  else .error s!"Agent not found: {agentId}"

/-- A request is answered with the replacement exactly if its set passes the check, and the
agent and the server are there. -/
theorem putAgentServerAccess_eq_ok_iff {agentExists : Bool} {policies : String → Option String}
    {rows replaced : List AccessControlEntry} {agentId serverId now : String}
    {set : ServerGrantSet} :
    putAgentServerAccess agentExists policies rows agentId serverId set now = .ok replaced ↔
      checkGrantSet set = .ok () ∧ agentExists = true ∧ (policies serverId).isSome = true ∧
        replaced = replaceAgentGrantsOnServer rows agentId serverId set "admin" now := by
  unfold putAgentServerAccess
  cases checkGrantSet set with
  | error problem => exact ⟨(nomatch ·), fun accepted => (nomatch accepted.1)⟩
  | ok =>
      cases agentExists with
      | false => exact ⟨(nomatch ·), fun accepted => (nomatch accepted.2.1)⟩
      | true =>
          cases policies serverId with
          | none => exact ⟨(nomatch ·), fun accepted => (nomatch accepted.2.2.1)⟩
          | some policy =>
              constructor
              · intro answered
                cases answered
                exact ⟨rfl, rfl, rfl, rfl⟩
              · rintro ⟨-, -, -, rfl⟩
                rfl

/-- What a set answers for a tool: the tool's own answer, else the server's, else
the default policy. -/
def ServerGrantSet.answer (set : ServerGrantSet) (policy : Option String) (toolName : String) :
    PermissionLevel :=
  match (set.tools.find? fun grant => grant.toolName == toolName).map ToolGrant.permission with
  | some permission => permission
  | none => set.server.getD (defaultPermission policy)

/-- The set with its tools in the order of their names. -/
def ServerGrantSet.sorted (set : ServerGrantSet) : ServerGrantSet :=
  { set with
    tools := set.tools.mergeSort fun first second => decide (first.toolName ≤ second.toolName) }

section Replacing

variable {clock : Clock} {policies : String → Option String} {rows : List AccessControlEntry}
  {agentId serverId grantedBy now : String} {set : ServerGrantSet}

theorem nodup_of_checkTools {seen : List String} {tools : List ToolGrant}
    (accepted : checkTools seen tools = .ok ()) :
    (tools.map ToolGrant.toolName).Nodup ∧ ∀ grant ∈ tools, grant.toolName ∉ seen := by
  induction tools generalizing seen with
  | nil => simp
  | cons grant rest ih =>
      unfold checkTools at accepted
      split at accepted
      · contradiction
      · split at accepted
        · contradiction
        · rename_i unseen
          rcases ih accepted with ⟨distinct, apart⟩
          constructor
          · rw [List.map_cons, List.nodup_cons]
            refine ⟨?_, distinct⟩
            intro repeated
            rcases List.mem_map.mp repeated with ⟨other, mem, same⟩
            exact apart other mem (by simp [same])
          · intro other mem
            rcases List.mem_cons.mp mem with rfl | later
            · exact unseen
            · exact fun wasSeen => apart other later (List.mem_cons_of_mem _ wasSeen)

/-- What answers for the replaced pair is deleted. -/
theorem lookup_kept {matching : AccessControlEntry → Bool}
    (replaced : ∀ entry, matching entry = true → isReplaced agentId serverId entry = true) :
    lookup matching AccessControlEntry.permission
      (rows.filter fun entry => !isReplaced agentId serverId entry) = none := by
  rw [lookup_eq_none_iff]
  intro entry mem
  rw [Bool.eq_false_iff]
  intro answers
  simp [List.mem_filter, replaced entry answers] at mem

theorem isReplaced_of_isToolGrant {toolName : String} {entry : AccessControlEntry}
    (answers : isToolGrant clock agentId serverId toolName entry = true) :
    isReplaced agentId serverId entry = true := by
  rcases isToolGrant_iff.mp answers with ⟨agent, server, -, type, -⟩
  simp [isReplaced, agent, server, isGrant, type]

theorem isReplaced_of_isServerGrant {entry : AccessControlEntry}
    (answers : isServerGrant clock agentId serverId entry = true) :
    isReplaced agentId serverId entry = true := by
  rcases isServerGrant_iff.mp answers with ⟨agent, server, type, -, -⟩
  simp [isReplaced, agent, server, isGrant, type]

/-- The rows of a set answer for a tool as the set does. -/
theorem lookup_rows_tool (toolName : String) :
    lookup (isToolGrant clock agentId serverId toolName) AccessControlEntry.permission
        (set.rows agentId serverId grantedBy now) =
      (set.tools.find? fun grant => grant.toolName == toolName).map ToolGrant.permission := by
  have server : lookup (isToolGrant clock agentId serverId toolName) AccessControlEntry.permission
      (set.server.toList.map (grantRow agentId serverId grantedBy now .serverGrant none))
        = none := by
    rw [lookup_eq_none_iff]
    intro entry mem
    rcases List.mem_map.mp mem with ⟨permission, -, rfl⟩
    simp [isToolGrant, grantRow]
  have tools : (isToolGrant clock agentId serverId toolName ∘ fun grant : ToolGrant =>
      grantRow agentId serverId grantedBy now .toolGrant (some grant.toolName) grant.permission) =
        fun grant => grant.toolName == toolName := by
    funext grant
    simp [isToolGrant, grantRow, unexpired]
  rw [ServerGrantSet.rows, lookup_append, server, Option.none_or, lookup, List.find?_map, tools,
    Option.map_map]
  rfl

/-- The rows of a set answer for the server as the set does. -/
theorem lookup_rows_server :
    lookup (isServerGrant clock agentId serverId) AccessControlEntry.permission
        (set.rows agentId serverId grantedBy now) = set.server := by
  have tools : lookup (isServerGrant clock agentId serverId) AccessControlEntry.permission
      (set.tools.map fun grant =>
        grantRow agentId serverId grantedBy now .toolGrant (some grant.toolName)
          grant.permission) = none := by
    rw [lookup_eq_none_iff]
    intro entry mem
    rcases List.mem_map.mp mem with ⟨grant, -, rfl⟩
    simp [isServerGrant, grantRow]
  rw [ServerGrantSet.rows, lookup_append, tools, Option.or_none]
  cases set.server with
  | none => rfl
  | some permission => simp [lookup, isServerGrant, grantRow, unexpired]

theorem explicitToolGrant_replaced (toolName : String) :
    explicitToolGrant clock (replaceAgentGrantsOnServer rows agentId serverId set grantedBy now)
        agentId serverId toolName =
      (set.tools.find? fun grant => grant.toolName == toolName).map ToolGrant.permission := by
  rw [explicitToolGrant, replaceAgentGrantsOnServer, lookup_append]
  rw [lookup_kept fun entry => isReplaced_of_isToolGrant, Option.none_or]
  exact lookup_rows_tool toolName

theorem explicitServerGrant_replaced :
    explicitServerGrant clock (replaceAgentGrantsOnServer rows agentId serverId set grantedBy now)
        agentId serverId = set.server := by
  rw [explicitServerGrant, replaceAgentGrantsOnServer, lookup_append]
  rw [lookup_kept fun entry => isReplaced_of_isServerGrant, Option.none_or]
  exact lookup_rows_server

/-- Every tool is answered by the set. -/
theorem resolveToolAccess_replaced (toolName : String) :
    resolveToolAccess clock policies
        (replaceAgentGrantsOnServer rows agentId serverId set grantedBy now) agentId serverId
        toolName =
      set.answer (policies serverId) toolName := by
  rw [resolveToolAccess, resolveExplicitPermission, explicitToolGrant_replaced,
    explicitServerGrant_replaced, ServerGrantSet.answer]
  cases (set.tools.find? fun grant => grant.toolName == toolName).map ToolGrant.permission with
  | some permission => rfl
  | none => cases set.server <;> rfl

/-- Calls of another agent, or to another server, are answered as before. -/
theorem resolveToolAccess_replaced_of_ne {otherAgent otherServer : String}
    (apart : ¬(otherAgent = agentId ∧ otherServer = serverId)) (toolName : String) :
    resolveToolAccess clock policies
        (replaceAgentGrantsOnServer rows agentId serverId set grantedBy now) otherAgent otherServer
        toolName =
      resolveToolAccess clock policies rows otherAgent otherServer toolName := by
  -- Neither a deleted row nor an inserted one answers for another pair.
  have untouched {matching : AccessControlEntry → Bool}
      (own : ∀ entry, matching entry = true →
        entry.agentId = otherAgent ∧ entry.serverId = otherServer) :
      lookup matching AccessControlEntry.permission
          (replaceAgentGrantsOnServer rows agentId serverId set grantedBy now) =
        lookup matching AccessControlEntry.permission rows := by
    have inserted : lookup matching AccessControlEntry.permission
        (set.rows agentId serverId grantedBy now) = none := by
      rw [lookup_eq_none_iff]
      intro entry mem
      rw [Bool.eq_false_iff]
      intro answers
      rcases own entry answers with ⟨rfl, rfl⟩
      rcases List.mem_append.mp mem with server | tool
      · rcases List.mem_map.mp server with ⟨permission, -, rfl⟩
        exact apart ⟨rfl, rfl⟩
      · rcases List.mem_map.mp tool with ⟨grant, -, rfl⟩
        exact apart ⟨rfl, rfl⟩
    rw [replaceAgentGrantsOnServer, lookup_append, inserted, Option.or_none]
    apply lookup_filter
    intro entry answers
    rcases own entry answers with ⟨rfl, rfl⟩
    rw [Bool.not_eq_true', Bool.eq_false_iff]
    intro replaced
    simp only [isReplaced, Bool.and_eq_true, beq_iff_eq] at replaced
    exact apart replaced.1
  apply resolveToolAccess_congr
  · apply untouched
    intro entry answers
    rcases isToolGrant_iff.mp answers with ⟨agent, server, -⟩
    exact ⟨agent, server⟩
  · apply untouched
    intro entry answers
    rcases isServerGrant_iff.mp answers with ⟨agent, server, -⟩
    exact ⟨agent, server⟩

/-- The capability rows stay. -/
theorem capability_replaced :
    (replaceAgentGrantsOnServer rows agentId serverId set grantedBy now).filter
        (fun entry => entry.entryType == .capability) =
      rows.filter fun entry => entry.entryType == .capability := by
  have inserted : (set.rows agentId serverId grantedBy now).filter
      (fun entry => entry.entryType == .capability) = [] := by
    rw [List.filter_eq_nil_iff]
    intro entry mem
    rcases List.mem_append.mp mem with server | tool
    · rcases List.mem_map.mp server with ⟨permission, -, rfl⟩
      simp [grantRow]
    · rcases List.mem_map.mp tool with ⟨grant, -, rfl⟩
      simp [grantRow]
  rw [replaceAgentGrantsOnServer, List.filter_append, inserted, List.append_nil,
    List.filter_filter]
  apply List.filter_congr
  intro entry mem
  cases type : entry.entryType <;> simp [isReplaced, isGrant, type]

/-- The names that are read back are those of the set, in order. -/
theorem grantedToolNames_replaced (distinct : (set.tools.map ToolGrant.toolName).Nodup) :
    grantedToolNames clock (replaceAgentGrantsOnServer rows agentId serverId set grantedBy now)
        agentId serverId =
      set.sorted.tools.map ToolGrant.toolName := by
  let isLive := fun entry : AccessControlEntry =>
    entry.agentId == agentId && entry.serverId == serverId && entry.entryType == .toolGrant
      && unexpired clock entry
  have kept : (rows.filter fun entry => !isReplaced agentId serverId entry).filter isLive = [] := by
    rw [List.filter_filter, List.filter_eq_nil_iff]
    intro entry mem both
    simp only [isLive, isReplaced, isGrant, Bool.and_eq_true, beq_iff_eq] at both
    simp [both.1.1] at both
  have server : (set.server.toList.map
      (grantRow agentId serverId grantedBy now .serverGrant none)).filter isLive = [] := by
    rw [List.filter_eq_nil_iff]
    intro entry mem
    rcases List.mem_map.mp mem with ⟨permission, -, rfl⟩
    simp [isLive, grantRow]
  have tools : (set.tools.map fun grant =>
      grantRow agentId serverId grantedBy now .toolGrant (some grant.toolName)
        grant.permission).filter isLive = set.tools.map fun grant =>
      grantRow agentId serverId grantedBy now .toolGrant (some grant.toolName)
        grant.permission := by
    rw [List.filter_eq_self]
    intro entry mem
    rcases List.mem_map.mp mem with ⟨grant, -, rfl⟩
    simp [isLive, grantRow, unexpired]
  have names : (set.tools.map fun grant =>
      grantRow agentId serverId grantedBy now .toolGrant (some grant.toolName)
        grant.permission).filterMap AccessControlEntry.toolName =
      set.tools.map ToolGrant.toolName := by
    simp [List.filterMap_map, grantRow]
  change (((replaceAgentGrantsOnServer rows agentId serverId set grantedBy now).filter
    isLive).filterMap AccessControlEntry.toolName).dedup.mergeSort _ = _
  rw [replaceAgentGrantsOnServer, ServerGrantSet.rows, List.filter_append, List.filter_append,
    kept, server, tools, List.nil_append, List.nil_append, names, distinct.dedup]
  symm
  apply List.map_mergeSort
  intro first firstMem second secondMem
  rfl

/-- The set is read back with its tools in order. -/
theorem agentGrantsOnServer_replaced (distinct : (set.tools.map ToolGrant.toolName).Nodup) :
    agentGrantsOnServer clock (replaceAgentGrantsOnServer rows agentId serverId set grantedBy now)
        agentId serverId = set.sorted := by
  have answers : ∀ grant ∈ set.sorted.tools,
      (explicitToolGrant clock (replaceAgentGrantsOnServer rows agentId serverId set grantedBy now)
        agentId serverId grant.toolName).map
          (fun permission => ToolGrant.mk grant.toolName permission)
        = some grant := by
    intro grant mem
    have stored : grant ∈ set.tools := List.mem_mergeSort.mp mem
    rw [explicitToolGrant_replaced, find?_of_nodup distinct stored]
    rfl
  have tools := (List.filterMap_congr answers).trans List.filterMap_some
  rw [agentGrantsOnServer, explicitServerGrant_replaced, grantedToolNames_replaced distinct,
    List.filterMap_map]
  exact congrArg (ServerGrantSet.mk set.server) tools

end Replacing

/-- What a replacement leaves behind: the set is read back, calls are answered by
it, and every other pair and every capability row is as before. -/
structure ReplacedExactly (clock : Clock) (policies : String → Option String)
    (before after : List AccessControlEntry) (agentId serverId : String) (set : ServerGrantSet) :
    Prop where
  readBack : agentGrantsOnServer clock after agentId serverId = set.sorted
  answers : ∀ toolName, resolveToolAccess clock policies after agentId serverId toolName =
    set.answer (policies serverId) toolName
  others : ∀ otherAgent otherServer, ¬(otherAgent = agentId ∧ otherServer = serverId) →
    ∀ toolName, resolveToolAccess clock policies after otherAgent otherServer toolName =
      resolveToolAccess clock policies before otherAgent otherServer toolName
  capabilities : (after.filter fun entry => entry.entryType == .capability) =
    before.filter fun entry => entry.entryType == .capability

/-- Every set that the handler accepts replaces the grants of its pair exactly. -/
theorem replacedExactly (clock : Clock) (policies : String → Option String)
    (rows : List AccessControlEntry) (agentId serverId : String) (set : ServerGrantSet)
    (grantedBy now : String) (accepted : checkGrantSet set = .ok ()) :
    ReplacedExactly clock policies rows
      (replaceAgentGrantsOnServer rows agentId serverId set grantedBy now) agentId serverId set := by
  have distinct : (set.tools.map ToolGrant.toolName).Nodup := (nodup_of_checkTools accepted).1
  constructor
  · exact agentGrantsOnServer_replaced distinct
  · exact resolveToolAccess_replaced
  · intro otherAgent otherServer apart
    exact resolveToolAccess_replaced_of_ne apart
  · exact capability_replaced

/-- A set of one tool and no server-wide answer. -/
def oneTool : ServerGrantSet where
  server := none
  tools := [⟨"write_file", .deny⟩]

theorem replacedExactly_oneTool :
    ReplacedExactly stoppedClock (fun _ => some "opt-in") [toolGrant .allow]
      (replaceAgentGrantsOnServer [toolGrant .allow] "agent.a" "files" oneTool "admin" "")
      "agent.a" "files" oneTool :=
  replacedExactly stoppedClock (fun _ => some "opt-in") [toolGrant .allow] "agent.a" "files" oneTool
    "admin" "" (by decide)

/-- The tool that the set does not name is refused afterwards. -/
example : resolveToolAccess stoppedClock (fun _ => some "opt-in")
    (replaceAgentGrantsOnServer [toolGrant .allow] "agent.a" "files" oneTool "admin" "")
    "agent.a" "files" "read_file" = .deny := by
  decide

end ClotoCore.Access
