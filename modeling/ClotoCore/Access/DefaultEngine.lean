import ClotoCore.Access.Yolo
import ClotoCore.Lookup.Keyed

/-!
# Granting a default engine

An engine that is installed is granted to the agents that have it as their default.  The
guard of the insertion asks for a server grant of the agent, expired or not, so that an agent
is left alone whose grants for the engine have all expired.
-/

namespace ClotoCore.Access

open ClotoCore.Lookup

/-- A row of `agents`. -/
structure AgentRow where
  id : String
  defaultEngineId : String
  deriving DecidableEq

/-- `agents`, whose primary key is the id. -/
abbrev AgentTable :=
  Keyed AgentRow.id

/-! ## The insertion -/

/-- A server grant of an agent, whether it has expired or not. -/
def isAnyServerGrant (agentId serverId : String) (entry : AccessControlEntry) : Bool :=
  entry.agentId == agentId && entry.serverId == serverId && entry.entryType == .serverGrant
    && entry.toolName == none

/-- The agents that the `SELECT` yields. -/
def defaultingAgents (agents : AgentTable) (rows : List AccessControlEntry) (serverId : String) :
    List AgentRow :=
  agents.items.filter fun agent =>
    agent.defaultEngineId == serverId && !rows.any (isAnyServerGrant agent.id serverId)

/-- The rows that are inserted. -/
def newGrants (agents : AgentTable) (rows : List AccessControlEntry) (serverId now : String) :
    List AccessControlEntry :=
  (defaultingAgents agents rows serverId).map fun agent =>
    allowServer "install:default-engine" now none agent.id serverId

/-- `grant_default_engine_to_agents`: the rows behind it and the number of them that are
new.  A row of a server that is not in `mcp_servers` breaks the foreign key. -/
def grantDefaultEngineToAgents (servers : List String) (agents : AgentTable)
    (rows : List AccessControlEntry) (serverId now : String) :
    Option (List AccessControlEntry × Nat) :=
  if newGrants agents rows serverId now ≠ [] ∧ serverId ∉ servers then none
  else some (rows ++ newGrants agents rows serverId now,
    (newGrants agents rows serverId now).length)

/-- The insertion is what an administrator's record has of it. -/
theorem newGrants_eq_adds (agents : AgentTable) (rows : List AccessControlEntry)
    (serverId now : String) :
    newGrants agents rows serverId now
      = (AdminAction.grantDefaultEngine serverId
          ((agents.items.filter fun agent => agent.defaultEngineId == serverId).map AgentRow.id)).adds
          now rows := by
  simp only [newGrants, defaultingAgents, AdminAction.adds, List.filter_map, List.map_map,
    List.filter_filter]
  congr 2
  funext agent
  exact Bool.and_comm _ _

/-! ## What it leaves -/

/-- An agent that has the engine as its default, and lacks a grant of it. -/
def Defaulting (agents : AgentTable) (serverId : String) (lacks : String → Prop)
    (agentId : String) : Prop :=
  (∃ agent ∈ agents.items, agent.id = agentId ∧ agent.defaultEngineId = serverId) ∧ lacks agentId

/-- The agent has no server grant for the server. -/
def LacksGrant (rows : List AccessControlEntry) (serverId agentId : String) : Prop :=
  ∀ entry ∈ rows, isAnyServerGrant agentId serverId entry = false

/-- The agent has no unexpired server grant for the server. -/
def LacksUnexpired (clock : Clock) (rows : List AccessControlEntry) (serverId agentId : String) :
    Prop :=
  ∀ entry ∈ rows, isServerGrant clock agentId serverId entry = false

/-- A pair is answered as before, in each of its tools. -/
def SameAnswers (clock : Clock) (policies : String → Option String)
    (before after : List AccessControlEntry) (agentId serverId : String) : Prop :=
  explicitServerGrant clock after agentId serverId
      = explicitServerGrant clock before agentId serverId ∧
    ∀ toolName, resolveToolAccess clock policies after agentId serverId toolName
      = resolveToolAccess clock policies before agentId serverId toolName

/-- What a grant of the default engine leaves, where the agents that lack a grant get one. -/
structure GrantsDefaults (clock : Clock) (policies : String → Option String)
    (servers : List String) (agents : AgentTable) (rows : List AccessControlEntry)
    (serverId now : String) (lacks : String → Prop) (added : List AccessControlEntry) : Prop where
  /-- Only server grants that allow are added. -/
  allow : ∀ entry ∈ added,
    entry = allowServer "install:default-engine" now none entry.agentId serverId
  once : ∀ agentId, Defaulting agents serverId lacks agentId →
    added.countP (fun entry => entry.agentId == agentId) = 1
  nobodyElse : ∀ agentId, ¬Defaulting agents serverId lacks agentId →
    added.countP (fun entry => entry.agentId == agentId) = 0
  denied : ∀ agentId, (∃ entry ∈ rows, isServerGrant clock agentId serverId entry = true ∧
    entry.permission = .deny) → SameAnswers clock policies rows (rows ++ added) agentId serverId
  again : ∀ later, grantDefaultEngineToAgents servers agents (rows ++ added) serverId later
    = some (rows ++ added, 0)
  others : ∀ agentId otherServer,
    ¬(Defaulting agents serverId lacks agentId ∧ otherServer = serverId) →
      SameAnswers clock policies rows (rows ++ added) agentId otherServer

section Granting

variable {clock : Clock} {policies : String → Option String} {servers : List String}
  {agents : AgentTable} {rows : List AccessControlEntry} {serverId now agentId : String}

@[simp]
theorem isAnyServerGrant_iff {entry : AccessControlEntry} :
    isAnyServerGrant agentId serverId entry = true ↔
      entry.agentId = agentId ∧ entry.serverId = serverId ∧ entry.entryType = .serverGrant ∧
        entry.toolName = none := by
  simp [isAnyServerGrant, and_assoc]

theorem isAnyServerGrant_of_isServerGrant {entry : AccessControlEntry}
    (grants : isServerGrant clock agentId serverId entry = true) :
    isAnyServerGrant agentId serverId entry = true := by
  rcases isServerGrant_iff.mp grants with ⟨agent, server, kind, tool, -⟩
  exact isAnyServerGrant_iff.mpr ⟨agent, server, kind, tool⟩

theorem mem_defaultingAgents_iff {agent : AgentRow} :
    agent ∈ defaultingAgents agents rows serverId ↔
      agent ∈ agents.items ∧ agent.defaultEngineId = serverId ∧
        LacksGrant rows serverId agent.id := by
  simp only [defaultingAgents, LacksGrant, List.mem_filter, Bool.and_eq_true, beq_iff_eq,
    Bool.not_eq_true', List.any_eq_false, Bool.not_eq_true]

theorem mem_newGrants_iff {entry : AccessControlEntry} :
    entry ∈ newGrants agents rows serverId now ↔
      ∃ agentId, Defaulting agents serverId (LacksGrant rows serverId) agentId ∧
        entry = allowServer "install:default-engine" now none agentId serverId := by
  simp only [newGrants, List.mem_map, mem_defaultingAgents_iff]
  constructor
  · rintro ⟨agent, ⟨mem, engine, lacks⟩, rfl⟩
    exact ⟨agent.id, ⟨⟨agent, mem, rfl, engine⟩, lacks⟩, rfl⟩
  · rintro ⟨agentId, ⟨⟨agent, mem, rfl, engine⟩, lacks⟩, rfl⟩
    exact ⟨agent, ⟨mem, engine, lacks⟩, rfl⟩

/-- The rows that are added are rows of the agents that lack a grant, one of each. -/
theorem count_newGrants (agentId : String) :
    (newGrants agents rows serverId now).countP (fun entry => entry.agentId == agentId)
      = ((defaultingAgents agents rows serverId).map AgentRow.id).count agentId := by
  rw [newGrants, List.countP_map, List.count, List.countP_map]
  rfl

theorem nodup_defaultingAgents :
    ((defaultingAgents agents rows serverId).map AgentRow.id).Nodup :=
  agents.distinct.sublist (List.filter_sublist.map _)

theorem mem_ids_iff :
    agentId ∈ (defaultingAgents agents rows serverId).map AgentRow.id ↔
      Defaulting agents serverId (LacksGrant rows serverId) agentId := by
  simp only [List.mem_map, mem_defaultingAgents_iff, Defaulting]
  constructor
  · rintro ⟨agent, ⟨mem, engine, lacks⟩, rfl⟩
    exact ⟨⟨agent, mem, rfl, engine⟩, lacks⟩
  · rintro ⟨⟨agent, mem, rfl, engine⟩, lacks⟩
    exact ⟨agent, ⟨mem, engine, lacks⟩, rfl⟩

/-- Pairs that no added row is about are answered as before. -/
theorem sameAnswers_append {added : List AccessControlEntry}
    (tools : ∀ entry ∈ added, entry.toolName = none) {otherServer : String}
    (apart : ∀ entry ∈ added, ¬(entry.agentId = agentId ∧ entry.serverId = otherServer)) :
    SameAnswers clock policies rows (rows ++ added) agentId otherServer := by
  have server : explicitServerGrant clock (rows ++ added) agentId otherServer
      = explicitServerGrant clock rows agentId otherServer := by
    have silent : lookup (isServerGrant clock agentId otherServer) AccessControlEntry.permission
        added = none := by
      rw [lookup_eq_none_iff]
      intro entry mem
      rw [Bool.eq_false_iff]
      intro grants
      rcases isServerGrant_iff.mp grants with ⟨agent, server, -⟩
      exact apart entry mem ⟨agent, server⟩
    rw [explicitServerGrant, lookup_append, silent, Option.or_none]
    rfl
  refine ⟨server, fun toolName => resolveToolAccess_congr ?_ server⟩
  have silent : lookup (isToolGrant clock agentId otherServer toolName)
      AccessControlEntry.permission added = none := by
    rw [lookup_eq_none_iff]
    intro entry mem
    rw [Bool.eq_false_iff]
    intro grants
    have named := (isToolGrant_iff.mp grants).2.2.1
    rw [tools entry mem] at named
    cases named
  rw [explicitToolGrant, lookup_append, silent, Option.or_none]
  rfl

/-- Behind the insertion no agent that has the engine as its default lacks a grant. -/
theorem newGrants_again (later : String) :
    newGrants agents (rows ++ newGrants agents rows serverId now) serverId later = [] := by
  rw [List.eq_nil_iff_forall_not_mem]
  intro entry mem
  rcases mem_newGrants_iff.mp mem with ⟨agentId, ⟨engine, lacks⟩, -⟩
  have before : LacksGrant rows serverId agentId :=
    fun entry mem => lacks entry (List.mem_append_left _ mem)
  have granted : allowServer "install:default-engine" now none agentId serverId
      ∈ newGrants agents rows serverId now :=
    mem_newGrants_iff.mpr ⟨agentId, ⟨engine, before⟩, rfl⟩
  have missed := lacks _ (List.mem_append_right _ granted)
  simp [isAnyServerGrant, allowServer, grantRow] at missed

/-- Every agent that has the engine as its default and no grant of it gets one. -/
theorem grantsDefaults_newGrants :
    GrantsDefaults clock policies servers agents rows serverId now (LacksGrant rows serverId)
      (newGrants agents rows serverId now) := by
  have untouched : ∀ agentId otherServer,
      ¬(Defaulting agents serverId (LacksGrant rows serverId) agentId ∧ otherServer = serverId) →
        SameAnswers clock policies rows (rows ++ newGrants agents rows serverId now) agentId
          otherServer := by
    intro agentId otherServer apart
    apply sameAnswers_append
    · intro entry mem
      rcases mem_newGrants_iff.mp mem with ⟨_, -, rfl⟩
      rfl
    · intro entry mem
      rcases mem_newGrants_iff.mp mem with ⟨granted, defaulting, rfl⟩
      rintro ⟨rfl, rfl⟩
      exact apart ⟨defaulting, rfl⟩
  refine ⟨?_, ?_, ?_, ?_, ?_, untouched⟩
  · intro entry mem
    rcases mem_newGrants_iff.mp mem with ⟨_, -, rfl⟩
    rfl
  · intro agentId defaulting
    rw [count_newGrants]
    exact List.count_eq_one_of_mem nodup_defaultingAgents (mem_ids_iff.mpr defaulting)
  · intro agentId other
    rw [count_newGrants, List.count_eq_zero]
    exact fun mem => other (mem_ids_iff.mp mem)
  · rintro agentId ⟨entry, mem, grants, -⟩
    apply untouched
    rintro ⟨⟨-, lacks⟩, -⟩
    have missed := lacks entry mem
    rw [isAnyServerGrant_of_isServerGrant grants] at missed
    cases missed
  · intro later
    rw [grantDefaultEngineToAgents, newGrants_again]
    simp

end Granting

/-- What an installed engine is granted, for every table; the database refuses the rows of a
server that it has not. -/
theorem grantDefaultEngineToAgents_spec (clock : Clock) (policies : String → Option String)
    (servers : List String) (agents : AgentTable) (rows : List AccessControlEntry)
    (serverId now : String) :
    match grantDefaultEngineToAgents servers agents rows serverId now with
    | some (after, count) =>
        ∃ added, after = rows ++ added ∧ count = added.length ∧
          GrantsDefaults clock policies servers agents rows serverId now (LacksGrant rows serverId)
            added
    | none =>
        serverId ∉ servers ∧
          ∃ agentId, Defaulting agents serverId (LacksGrant rows serverId) agentId := by
  unfold grantDefaultEngineToAgents
  by_cases refused : newGrants agents rows serverId now ≠ [] ∧ serverId ∉ servers
  · rw [if_pos refused]
    refine ⟨refused.2, ?_⟩
    rcases List.exists_mem_of_ne_nil _ refused.1 with ⟨entry, mem⟩
    rcases mem_newGrants_iff.mp mem with ⟨agentId, defaulting, -⟩
    exact ⟨agentId, defaulting⟩
  · rw [if_neg refused]
    exact ⟨_, rfl, rfl, grantsDefaults_newGrants⟩

/-- An agent whose grant of its default engine has expired. -/
def expiredGrant : AccessControlEntry :=
  { allowServer "admin" "2026-01-01" none "agent.a" "engine" with expiresAt := some "2026-01-02" }

/-- A table with one agent, whose default engine is `engine`. -/
def oneAgent : AgentTable where
  items := [⟨"agent.a", "engine"⟩]
  distinct := by decide

/-- The agent has no unexpired grant, and gets none. -/
theorem expired_grant_not_renewed :
    let clock : Clock := { datetime := fun _ => some 0, now := 1 }
    ¬∃ added count,
      grantDefaultEngineToAgents ["engine"] oneAgent [expiredGrant] "engine" "2026-02-01"
          = some ([expiredGrant] ++ added, count) ∧
        GrantsDefaults clock (fun _ => none) ["engine"] oneAgent [expiredGrant] "engine"
          "2026-02-01" (LacksUnexpired clock [expiredGrant] "engine") added := by
  rintro clock ⟨added, count, granted, grants⟩
  have nothing : grantDefaultEngineToAgents ["engine"] oneAgent [expiredGrant] "engine" "2026-02-01"
      = some ([expiredGrant], 0) := by
    decide
  rw [nothing, Option.some.injEq, Prod.mk.injEq] at granted
  have nothingAdded : added = [] := by simpa using granted.1
  have lacks : LacksUnexpired clock [expiredGrant] "engine" "agent.a" := by
    intro entry mem
    rw [List.mem_singleton.mp mem]
    decide
  have one := grants.once "agent.a" ⟨⟨⟨"agent.a", "engine"⟩, by decide, rfl, rfl⟩, lacks⟩
  rw [nothingAdded] at one
  cases one

end ClotoCore.Access
