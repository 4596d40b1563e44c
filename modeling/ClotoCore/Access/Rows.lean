import ClotoCore.Lookup.Scan
import Mathlib.Data.Fintype.EquivFin

/-!
# Access rows and the answer to a call

A tool call is answered by the first unexpired tool grant that is scanned, else
by the first unexpired server grant, else by the default policy of the server.
The table has no uniqueness constraint and its queries no order, so two rows of
one key that disagree make the answer depend on the scan.
-/

namespace ClotoCore.Access

open ClotoCore.Lookup

/-! ## Rows -/

/-- `EntryType` -/
inductive EntryType where
  | capability
  | serverGrant
  | toolGrant
  deriving DecidableEq

/-- `PermissionLevel` -/
inductive PermissionLevel where
  | allow
  | deny
  deriving DecidableEq

/-- `DefaultPolicy` -/
inductive DefaultPolicy where
  | optIn
  | optOut
  deriving DecidableEq

/-- `DefaultPolicy::from_str_lossy` -/
def DefaultPolicy.fromStrLossy : String → DefaultPolicy
  | "opt-out" => .optOut
  | _ => .optIn

/-- `default_permission` -/
def DefaultPolicy.defaultPermission : DefaultPolicy → PermissionLevel
  | .optOut => .allow
  | .optIn => .deny

/-- `AccessControlEntry` without its row id. -/
structure AccessControlEntry where
  entryType : EntryType
  agentId : String
  serverId : String
  toolName : Option String
  permission : PermissionLevel
  grantedBy : Option String
  grantedAt : String
  expiresAt : Option String
  justification : Option String
  metadata : Option String
  deriving DecidableEq

/-- What a query sees of time: the second that `datetime` reads in a text, if it
reads one, and the second of `datetime('now')`. -/
structure Clock where
  datetime : String → Option Int
  now : Int

/-- `expires_at IS NULL OR datetime(expires_at) > datetime('now')` -/
def unexpired (clock : Clock) (entry : AccessControlEntry) : Bool :=
  match entry.expiresAt with
  | none => true
  | some text =>
      match clock.datetime text with
      | none => false
      | some second => decide (clock.now < second)

/-! ## Resolution -/

/-- The rows that answer for one tool. -/
def isToolGrant (clock : Clock) (agentId serverId toolName : String)
    (entry : AccessControlEntry) : Bool :=
  entry.agentId == agentId && entry.serverId == serverId && entry.toolName == some toolName
    && entry.entryType == .toolGrant && unexpired clock entry

/-- The rows that answer for a server. -/
def isServerGrant (clock : Clock) (agentId serverId : String) (entry : AccessControlEntry) : Bool :=
  entry.agentId == agentId && entry.serverId == serverId && entry.entryType == .serverGrant
    && entry.toolName == none && unexpired clock entry

/-- `explicit_tool_grant`, over the rows in the order of the scan. -/
def explicitToolGrant (clock : Clock) (rows : List AccessControlEntry)
    (agentId serverId toolName : String) : Option PermissionLevel :=
  lookup (isToolGrant clock agentId serverId toolName) AccessControlEntry.permission rows

/-- `explicit_server_grant` -/
def explicitServerGrant (clock : Clock) (rows : List AccessControlEntry)
    (agentId serverId : String) : Option PermissionLevel :=
  lookup (isServerGrant clock agentId serverId) AccessControlEntry.permission rows

/-- `resolve_explicit_permission` -/
def resolveExplicitPermission (clock : Clock) (rows : List AccessControlEntry)
    (agentId serverId toolName : String) : Option PermissionLevel :=
  match explicitToolGrant clock rows agentId serverId toolName with
  | some permission => some permission
  | none => explicitServerGrant clock rows agentId serverId

/-- The permission of a server whose grants say nothing. -/
def defaultPermission (policy : Option String) : PermissionLevel :=
  (DefaultPolicy.fromStrLossy (policy.getD "opt-in")).defaultPermission

/-- `resolve_tool_access`, where `policies` are the default policies of the stored
servers. -/
def resolveToolAccess (clock : Clock) (policies : String → Option String)
    (rows : List AccessControlEntry) (agentId serverId toolName : String) : PermissionLevel :=
  match resolveExplicitPermission clock rows agentId serverId toolName with
  | some permission => permission
  | none => defaultPermission (policies serverId)

section Answers

variable {clock : Clock} {policies : String → Option String} {rows scan : List AccessControlEntry}
  {agentId serverId toolName : String} {entry : AccessControlEntry}

@[simp]
theorem isToolGrant_iff : isToolGrant clock agentId serverId toolName entry = true ↔
    entry.agentId = agentId ∧ entry.serverId = serverId ∧ entry.toolName = some toolName ∧
      entry.entryType = .toolGrant ∧ unexpired clock entry = true := by
  simp [isToolGrant, and_assoc]

@[simp]
theorem isServerGrant_iff : isServerGrant clock agentId serverId entry = true ↔
    entry.agentId = agentId ∧ entry.serverId = serverId ∧ entry.entryType = .serverGrant ∧
      entry.toolName = none ∧ unexpired clock entry = true := by
  simp [isServerGrant, and_assoc]

/-- The tool grant answers where there is one. -/
theorem resolveToolAccess_of_tool {permission : PermissionLevel}
    (explicit : explicitToolGrant clock rows agentId serverId toolName = some permission) :
    resolveToolAccess clock policies rows agentId serverId toolName = permission := by
  simp [resolveToolAccess, resolveExplicitPermission, explicit]

/-- The server grant answers where there is no tool grant. -/
theorem resolveToolAccess_of_server {permission : PermissionLevel}
    (silent : explicitToolGrant clock rows agentId serverId toolName = none)
    (explicit : explicitServerGrant clock rows agentId serverId = some permission) :
    resolveToolAccess clock policies rows agentId serverId toolName = permission := by
  simp [resolveToolAccess, resolveExplicitPermission, silent, explicit]

/-- Scans that answer both lookups alike answer every call alike. -/
theorem resolveToolAccess_congr
    (tool : explicitToolGrant clock scan agentId serverId toolName =
      explicitToolGrant clock rows agentId serverId toolName)
    (server : explicitServerGrant clock scan agentId serverId =
      explicitServerGrant clock rows agentId serverId) :
    resolveToolAccess clock policies scan agentId serverId toolName =
      resolveToolAccess clock policies rows agentId serverId toolName := by
  rw [resolveToolAccess, resolveToolAccess, resolveExplicitPermission, resolveExplicitPermission,
    tool, server]

/-- Expired rows have no effect, whichever of them are left out. -/
theorem resolveToolAccess_filter {keep : AccessControlEntry → Bool}
    (kept : ∀ entry, unexpired clock entry = true → keep entry = true) :
    resolveToolAccess clock policies (rows.filter keep) agentId serverId toolName =
      resolveToolAccess clock policies rows agentId serverId toolName := by
  apply resolveToolAccess_congr
  · apply lookup_filter
    intro entry answers
    exact kept entry (isToolGrant_iff.mp answers).2.2.2.2
  · apply lookup_filter
    intro entry answers
    exact kept entry (isServerGrant_iff.mp answers).2.2.2.2

end Answers

/-! ## Answers that the rows decide -/

/-- No two unexpired grants of one key disagree. -/
structure Consistent (clock : Clock) (rows : List AccessControlEntry) : Prop where
  tools : ∀ agentId serverId toolName,
    Agree (isToolGrant clock agentId serverId toolName) AccessControlEntry.permission rows
  servers : ∀ agentId serverId,
    Agree (isServerGrant clock agentId serverId) AccessControlEntry.permission rows

/-- The set of rows decides every answer: the order of the scan does not matter,
an unexpired Deny of a tool is never overridden, and expired rows have no
effect. -/
structure DecidedByRows (clock : Clock) (policies : String → Option String)
    (rows : List AccessControlEntry) : Prop where
  ordered : ∀ scan, scan.Perm rows → ∀ agentId serverId toolName,
    resolveToolAccess clock policies scan agentId serverId toolName =
      resolveToolAccess clock policies rows agentId serverId toolName
  denied : ∀ scan, scan.Perm rows → ∀ agentId serverId toolName, ∀ entry ∈ rows,
    isToolGrant clock agentId serverId toolName entry = true → entry.permission = .deny →
      resolveToolAccess clock policies scan agentId serverId toolName = .deny
  expired : ∀ keep : AccessControlEntry → Bool,
    (∀ entry, unexpired clock entry = true → keep entry = true) →
      ∀ agentId serverId toolName,
        resolveToolAccess clock policies (rows.filter keep) agentId serverId toolName =
          resolveToolAccess clock policies rows agentId serverId toolName

section Decided

variable {clock : Clock} {policies : String → Option String} {rows : List AccessControlEntry}

/-- A tool that no row names. -/
theorem exists_unnamed_tool (rows : List AccessControlEntry) :
    ∃ toolName, ∀ entry ∈ rows, entry.toolName ≠ some toolName := by
  rcases Infinite.exists_notMem_finset (rows.filterMap AccessControlEntry.toolName).toFinset with
    ⟨toolName, unnamed⟩
  refine ⟨toolName, fun entry mem named => unnamed ?_⟩
  rw [List.mem_toFinset, List.mem_filterMap]
  exact ⟨entry, mem, named⟩

/-- Where no order changes an answer, the grants of one tool agree. -/
theorem agree_tools_of_ordered
    (ordered : ∀ scan, scan.Perm rows → ∀ agentId serverId toolName,
      resolveToolAccess clock policies scan agentId serverId toolName =
        resolveToolAccess clock policies rows agentId serverId toolName)
    (agentId serverId toolName : String) :
    Agree (isToolGrant clock agentId serverId toolName) AccessControlEntry.permission rows := by
  apply agree_of_ordered
  intro scan same value other first second
  have answers := ordered scan same agentId serverId toolName
  rw [resolveToolAccess_of_tool first, resolveToolAccess_of_tool second] at answers
  exact answers

/-- Where no order changes an answer, the grants of one server agree: they decide
the answer for a tool that no row names. -/
theorem agree_servers_of_ordered
    (ordered : ∀ scan, scan.Perm rows → ∀ agentId serverId toolName,
      resolveToolAccess clock policies scan agentId serverId toolName =
        resolveToolAccess clock policies rows agentId serverId toolName)
    (agentId serverId : String) :
    Agree (isServerGrant clock agentId serverId) AccessControlEntry.permission rows := by
  rcases exists_unnamed_tool rows with ⟨toolName, unnamed⟩
  have silent {scan : List AccessControlEntry} (same : scan.Perm rows) :
      explicitToolGrant clock scan agentId serverId toolName = none := by
    rw [explicitToolGrant, lookup_eq_none_iff]
    intro entry mem
    rw [Bool.eq_false_iff]
    intro found
    exact unnamed entry (same.mem_iff.mp mem) (isToolGrant_iff.mp found).2.2.1
  apply agree_of_ordered
  intro scan same value other first second
  have answers := ordered scan same agentId serverId toolName
  rw [resolveToolAccess_of_server (silent same) first,
    resolveToolAccess_of_server (silent (.refl rows)) second] at answers
  exact answers

/-- The rows decide every answer exactly if no two unexpired grants of one key
disagree. -/
theorem decidedByRows_iff (clock : Clock) (policies : String → Option String)
    (rows : List AccessControlEntry) :
    DecidedByRows clock policies rows ↔ Consistent clock rows := by
  constructor
  · intro decided
    constructor
    · exact agree_tools_of_ordered decided.ordered
    · exact agree_servers_of_ordered decided.ordered
  · intro consistent
    constructor
    · intro scan same agentId serverId toolName
      apply resolveToolAccess_congr
      · exact (consistent.tools agentId serverId toolName).lookup_perm same
      · exact (consistent.servers agentId serverId).lookup_perm same
    · intro scan same agentId serverId toolName entry mem found isDeny
      have agree := (consistent.tools agentId serverId toolName).perm same
      have answer := agree.lookup_eq (same.mem_iff.mpr mem) found
      rw [isDeny] at answer
      exact resolveToolAccess_of_tool answer
    · intro keep kept agentId serverId toolName
      exact resolveToolAccess_filter kept

end Decided

/-! ## Two rows that disagree -/

/-- The set of rows decides every answer, whatever the rows are. -/
def AlwaysDecided : Prop :=
  ∀ (clock : Clock) (policies : String → Option String) (rows : List AccessControlEntry),
    DecidedByRows clock policies rows

/-- A grant of one tool of one server to one agent that does not expire. -/
def toolGrant (permission : PermissionLevel) : AccessControlEntry where
  entryType := .toolGrant
  agentId := "agent.a"
  serverId := "files"
  toolName := some "read_file"
  permission := permission
  grantedBy := some "admin"
  grantedAt := "2026-01-01T00:00:00+00:00"
  expiresAt := none
  justification := none
  metadata := none

/-- A clock that reads no text. -/
def stoppedClock : Clock where
  datetime := fun _ => none
  now := 0

/-- A Deny behind an Allow is overridden. -/
theorem not_alwaysDecided : ¬AlwaysDecided := by
  intro always
  have decided := always stoppedClock (fun _ => none) [toolGrant .allow, toolGrant .deny]
  have denied := decided.denied _ (.refl _) "agent.a" "files" "read_file" (toolGrant .deny)
    (by decide) (by decide) rfl
  have allowed : resolveToolAccess stoppedClock (fun _ => none)
      [toolGrant .allow, toolGrant .deny] "agent.a" "files" "read_file" = .allow := by decide
  rw [allowed] at denied
  contradiction

end ClotoCore.Access
