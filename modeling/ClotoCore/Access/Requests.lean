import ClotoCore.Access.Rows
import ClotoCore.Json.Value

/-!
# Permission requests

A server that lacks a permission is held, and a row that asks for it is inserted
under an id made of the server's and the permission's names.  An insert under an
id that is taken fails, and its failure is passed over.  A row that is pending
becomes approved or denied once.
-/

namespace ClotoCore.Access

open ClotoCore.Json

/-! ## The table -/

/-- The states of a request. -/
inductive RequestStatus where
  | pending
  | approved
  | autoApproved
  | denied
  deriving DecidableEq

/-- `PermissionRequest` -/
structure PermissionRequest where
  requestId : String
  createdAt : String
  pluginId : String
  permissionType : String
  targetResource : Option String
  justification : String
  status : RequestStatus
  approvedBy : Option String
  approvedAt : Option String
  expiresAt : Option String
  metadata : Option Value

/-- The table of requests, no two of which have one id. -/
structure RequestTable where
  rows : List PermissionRequest
  unique : (rows.map PermissionRequest.requestId).Nodup

/-- `create_permission_request`: the columns of an approval are not inserted. -/
def createPermissionRequest (table : RequestTable) (request : PermissionRequest) :
    Except String RequestTable :=
  if taken : request.requestId ∈ table.rows.map PermissionRequest.requestId then
    .error "UNIQUE constraint failed: permission_requests.request_id"
  else
    .ok
      { rows := table.rows ++ [{ request with approvedBy := none, approvedAt := none }]
        unique := by
          rw [List.map_append, List.map_singleton, ← List.concat_eq_append]
          exact List.Nodup.concat taken table.unique }

/-- An insert whose failure is passed over. -/
def tryCreate (table : RequestTable) (request : PermissionRequest) : RequestTable :=
  match createPermissionRequest table request with
  | .ok created => created
  | .error _ => table

/-- What a decision writes into a row that is pending. -/
def decideRow (requestId : String) (status : RequestStatus) (approvedBy now : String)
    (row : PermissionRequest) : PermissionRequest :=
  if row.requestId = requestId ∧ row.status = .pending then
    { row with status, approvedBy := some approvedBy, approvedAt := some now }
  else row

theorem decideRow_requestId (requestId : String) (status : RequestStatus) (approvedBy now : String)
    (row : PermissionRequest) :
    (decideRow requestId status approvedBy now row).requestId = row.requestId := by
  unfold decideRow
  split <;> rfl

/-- `update_permission_request` -/
def updatePermissionRequest (table : RequestTable) (requestId : String) (status : RequestStatus)
    (approvedBy now : String) : Except String RequestTable :=
  if status ≠ .approved ∧ status ≠ .denied then
    .error "Invalid status value. Must be 'approved' or 'denied'"
  else if table.rows.any fun row => row.requestId == requestId && row.status == .pending then
    .ok
      { rows := table.rows.map (decideRow requestId status approvedBy now)
        unique := by
          rw [List.map_map]
          have same : PermissionRequest.requestId ∘ decideRow requestId status approvedBy now =
              PermissionRequest.requestId :=
            funext (decideRow_requestId requestId status approvedBy now)
          rw [same]
          exact table.unique }
  else .error s!"Permission request '{requestId}' not found or already processed"

/-- `expires_at IS NULL OR datetime(expires_at) > datetime('now')` -/
def requestUnexpired (clock : Clock) (row : PermissionRequest) : Bool :=
  match row.expiresAt with
  | none => true
  | some text =>
      match clock.datetime text with
      | none => false
      | some second => decide (clock.now < second)

/-- A row approves a permission. -/
def isApproval (clock : Clock) (pluginId permissionType : String) (row : PermissionRequest) :
    Bool :=
  row.pluginId == pluginId && row.permissionType == permissionType
    && (row.status == .approved || row.status == .autoApproved) && requestUnexpired clock row

/-- `is_permission_approved` -/
def isPermissionApproved (clock : Clock) (table : RequestTable) (pluginId permissionType : String) :
    Bool :=
  table.rows.any (isApproval clock pluginId permissionType)

/-! ## The gates -/

/-- The two gates of a connection: one for the permissions that the configuration
requires, one for those that the server itself declares. -/
inductive GateSource where
  | configured
  | negotiated
  deriving DecidableEq

/-- The first part of the request ids of a gate. -/
def GateSource.tag : GateSource → String
  | .configured => "mcp"
  | .negotiated => "mgp"

/-- Why a gate asks for a permission. -/
def GateSource.justification : GateSource → String → String → String
  | .configured, id, permission =>
      s!"MCP server '{id}' requires '{permission}' permission to operate"
  | .negotiated, id, permission => s!"MGP server '{id}' declares '{permission}' permission"

/-- Why a gate approves a permission itself. -/
def GateSource.autoJustification : GateSource → String → String → String
  | .configured, id, permission =>
      s!"MCP server '{id}' requires '{permission}' (auto-approved: YOLO mode)"
  | .negotiated, id, permission =>
      s!"MGP server '{id}' declares '{permission}' (auto-approved: YOLO mode)"

/-- The name of a gate in the metadata of a request. -/
def GateSource.metadataSource : GateSource → String
  | .configured => "mcp_permission_gate"
  | .negotiated => "mgp_permission_flow"

/-- One passage of a gate: the server, the mode, and what is required. -/
structure Passage where
  source : GateSource
  serverId : String
  command : String
  yolo : Bool
  yoloExceptions : List String
  required : List String
  now : String

namespace Passage

variable (passage : Passage)

/-- The id under which a permission is asked for. -/
def requestId (permission : String) : String :=
  passage.source.tag ++ "-" ++ passage.serverId ++ "-" ++ permission

/-- The request for a permission that an operator has to approve. -/
def pendingRequest (permission : String) : PermissionRequest where
  requestId := passage.requestId permission
  createdAt := passage.now
  pluginId := passage.serverId
  permissionType := permission
  targetResource := none
  justification := passage.source.justification passage.serverId permission
  status := .pending
  approvedBy := none
  approvedAt := none
  expiresAt := none
  metadata := some <| .object
    [("source", .string passage.source.metadataSource),
      ("server_command", .string passage.command)]

/-- The request for a permission that YOLO mode approves. -/
def autoApprovedRequest (permission : String) : PermissionRequest where
  requestId := passage.requestId permission
  createdAt := passage.now
  pluginId := passage.serverId
  permissionType := permission
  targetResource := none
  justification := passage.source.autoJustification passage.serverId permission
  status := .autoApproved
  approvedBy := some "YOLO"
  approvedAt := some passage.now
  expiresAt := none
  metadata := none

/-- The permissions that YOLO mode approves. -/
def yoloPermissions : List String :=
  if passage.yolo then
    passage.required.filter fun permission => !passage.yoloExceptions.contains permission
  else []

/-- The permissions that an operator has to approve. -/
def manualPermissions : List String :=
  if passage.yolo then passage.required.filter passage.yoloExceptions.contains
  else passage.required

/-- Approve one permission. -/
def autoApprove (clock : Clock) (table : RequestTable) (permission : String) : RequestTable :=
  if isPermissionApproved clock table passage.serverId permission then table
  else tryCreate table (passage.autoApprovedRequest permission)

/-- Look for one approval, and ask for it if there is none. -/
def requireApproval (clock : Clock) (progress : RequestTable × List String) (permission : String) :
    RequestTable × List String :=
  if isPermissionApproved clock progress.1 passage.serverId permission then progress
  else (tryCreate progress.1 (passage.pendingRequest permission), progress.2 ++ [permission])

/-- A gate: the table it leaves, and the permissions for which the server is held. -/
def permissionGate (clock : Clock) (table : RequestTable) : RequestTable × List String :=
  passage.manualPermissions.foldl (passage.requireApproval clock)
    (passage.yoloPermissions.foldl (passage.autoApprove clock) table, [])

end Passage

/-- An operator approves the requests with these ids, one by one. -/
def approveAll (table : RequestTable) (now : String) (requestIds : List String) : RequestTable :=
  requestIds.foldl
    (fun table requestId =>
      match updatePermissionRequest table requestId .approved "admin" now with
      | .ok updated => updated
      | .error _ => table)
    table

/-! ## What an insert and a decision change -/

section Table

variable {clock : Clock} {table : RequestTable} {request row : PermissionRequest}
  {pluginId permissionType : String}

theorem mem_tryCreate (mem : row ∈ (tryCreate table request).rows) :
    row ∈ table.rows ∨
      row = { request with approvedBy := none, approvedAt := none } ∧
        request.requestId ∉ table.rows.map PermissionRequest.requestId := by
  unfold tryCreate createPermissionRequest at mem
  split at mem
  · rename_i created inserted
    split at inserted
    · cases inserted
    · rename_i free
      cases inserted
      rcases List.mem_append.mp mem with old | new
      · exact .inl old
      · exact .inr ⟨List.mem_singleton.mp new, free⟩
  · exact .inl mem

theorem subset_tryCreate : table.rows ⊆ (tryCreate table request).rows := by
  unfold tryCreate createPermissionRequest
  by_cases taken : request.requestId ∈ table.rows.map PermissionRequest.requestId
  · simp [taken]
  · simp [taken]

/-- Whether or not an insert fails, its id is taken. -/
theorem taken_tryCreate :
    request.requestId ∈ (tryCreate table request).rows.map PermissionRequest.requestId := by
  unfold tryCreate createPermissionRequest
  by_cases taken : request.requestId ∈ table.rows.map PermissionRequest.requestId
  · simp only [taken, dite_true]
  · simp [taken]

theorem isPermissionApproved_iff : isPermissionApproved clock table pluginId permissionType = true ↔
    ∃ row ∈ table.rows, row.pluginId = pluginId ∧ row.permissionType = permissionType ∧
      (row.status = .approved ∨ row.status = .autoApproved) ∧
        requestUnexpired clock row = true := by
  simp [isPermissionApproved, isApproval, and_assoc]

/-- A row that an operator has approved. -/
def approveRow (now : String) (row : PermissionRequest) : PermissionRequest :=
  { row with status := .approved, approvedBy := some "admin", approvedAt := some now }

theorem updatePermissionRequest_rows (requestId now : String) :
    (match updatePermissionRequest table requestId .approved "admin" now with
      | .ok updated => updated
      | .error _ => table).rows =
        table.rows.map (decideRow requestId .approved "admin" now) := by
  have accepted : ¬(RequestStatus.approved ≠ .approved ∧ RequestStatus.approved ≠ .denied) := by
    decide
  rw [updatePermissionRequest, if_neg accepted]
  cases found : table.rows.any fun row => row.requestId == requestId && row.status == .pending with
  | true => rfl
  | false =>
      simp only [Bool.false_eq_true, if_false]
      symm
      rw [List.map_congr_left, List.map_id]
      intro row mem
      have other := List.any_eq_false.mp found row mem
      simp only [Bool.and_eq_true, beq_iff_eq] at other
      rw [decideRow, if_neg other]
      rfl

/-- The rows with these ids that are pending become approved, and no other row
changes. -/
theorem approveAll_rows (now : String) (requestIds : List String) (table : RequestTable) :
    (approveAll table now requestIds).rows = table.rows.map fun row =>
      if row.requestId ∈ requestIds ∧ row.status = .pending then approveRow now row else row := by
  induction requestIds generalizing table with
  | nil => simp [approveAll]
  | cons requestId rest ih =>
      rw [approveAll, List.foldl_cons]
      refine (ih _).trans ?_
      rw [updatePermissionRequest_rows, List.map_map]
      apply List.map_congr_left
      intro row mem
      by_cases pending : row.status = .pending
      · by_cases same : row.requestId = requestId
        · simp [decideRow, approveRow, pending, same]
        · simp [decideRow, pending, same]
      · simp [decideRow, pending]

/-- A permission is approved afterwards if it was before, or if one of the approved
rows asks for it. -/
theorem isPermissionApproved_approveAll {now : String} {requestIds : List String} :
    isPermissionApproved clock (approveAll table now requestIds) pluginId permissionType = true ↔
      isPermissionApproved clock table pluginId permissionType = true ∨
        ∃ row ∈ table.rows, row.requestId ∈ requestIds ∧ row.status = .pending ∧
          row.pluginId = pluginId ∧ row.permissionType = permissionType ∧
            requestUnexpired clock row = true := by
  rw [isPermissionApproved_iff, isPermissionApproved_iff, approveAll_rows]
  constructor
  · rintro ⟨later, laterMem, plugin, type, status, unexpired⟩
    rcases List.mem_map.mp laterMem with ⟨row, mem, rfl⟩
    split at status
    · rename_i decided
      rw [if_pos decided] at plugin type unexpired
      exact .inr ⟨row, mem, decided.1, decided.2, plugin, type, unexpired⟩
    · rename_i kept
      rw [if_neg kept] at plugin type unexpired
      exact .inl ⟨row, mem, plugin, type, status, unexpired⟩
  · rintro (⟨row, mem, plugin, type, status, unexpired⟩ |
      ⟨row, mem, named, pending, plugin, type, unexpired⟩)
    · refine ⟨row, List.mem_map.mpr ⟨row, mem, if_neg ?_⟩, plugin, type, status, unexpired⟩
      rintro ⟨_, pending⟩
      rw [pending] at status
      rcases status with approved | approved <;> cases approved
    · exact ⟨approveRow now row, List.mem_map.mpr ⟨row, mem, if_pos ⟨named, pending⟩⟩, plugin, type,
        .inl rfl, unexpired⟩

end Table

/-! ## What a gate leaves -/

namespace Passage

/-- A table in the middle of a passage: what was there is there, and what is new has
an id of this gate and server that was free. -/
structure Grown (passage : Passage) (table later : RequestTable) : Prop where
  old : table.rows ⊆ later.rows
  new : ∀ row ∈ later.rows, row ∈ table.rows ∨
    row.pluginId = passage.serverId ∧ row.requestId = passage.requestId row.permissionType ∧
      row.expiresAt = none ∧
        (row.permissionType ∈ passage.manualPermissions → row.status = .pending) ∧
          row.requestId ∉ table.rows.map PermissionRequest.requestId

section Gate

variable {passage : Passage} {clock : Clock} {table later : RequestTable} {permission : String}

theorem requestId_inj {first second : String}
    (same : passage.requestId first = passage.requestId second) : first = second :=
  (String.append_right_inj _).mp same

theorem Grown.refl : passage.Grown table table :=
  ⟨List.Subset.refl _, fun _ mem => .inl mem⟩

/-- Step: a request of this gate and server. -/
theorem Grown.tryCreate (grown : passage.Grown table later) {request : PermissionRequest}
    (plugin : request.pluginId = passage.serverId)
    (named : request.requestId = passage.requestId request.permissionType)
    (lasting : request.expiresAt = none)
    (asked : request.permissionType ∈ passage.manualPermissions → request.status = .pending) :
    passage.Grown table (tryCreate later request) := by
  constructor
  · exact List.Subset.trans grown.old subset_tryCreate
  · intro row mem
    rcases mem_tryCreate mem with old | ⟨rfl, free⟩
    · exact grown.new row old
    · refine .inr ⟨plugin, named, lasting, asked, ?_⟩
      intro taken
      exact free (List.map_subset _ grown.old taken)

/-- No permission that an operator has to approve is approved in the middle. -/
theorem Grown.approved (grown : passage.Grown table later)
    (manual : permission ∈ passage.manualPermissions) :
    isPermissionApproved clock later passage.serverId permission =
      isPermissionApproved clock table passage.serverId permission := by
  rw [Bool.eq_iff_iff, isPermissionApproved_iff, isPermissionApproved_iff]
  constructor
  · rintro ⟨row, mem, plugin, rfl, status, unexpired⟩
    rcases grown.new row mem with old | ⟨_, _, _, asked, _⟩
    · exact ⟨row, old, plugin, rfl, status, unexpired⟩
    · rw [asked manual] at status
      rcases status with approved | approved <;> cases approved
  · rintro ⟨row, mem, rest⟩
    exact ⟨row, grown.old mem, rest⟩

theorem apart_of_yolo (eligible : permission ∈ passage.yoloPermissions) :
    permission ∉ passage.manualPermissions := by
  intro manual
  unfold yoloPermissions at eligible
  unfold manualPermissions at manual
  split at eligible
  · rename_i yolo
    rw [if_pos yolo] at manual
    have excepted := (List.mem_filter.mp manual).2
    have notExcepted := (List.mem_filter.mp eligible).2
    rw [excepted] at notExcepted
    cases notExcepted
  · cases eligible

/-- The approvals of YOLO mode. -/
theorem grown_autoApprove {permissions : List String}
    (eligible : permissions ⊆ passage.yoloPermissions)
    (grown : passage.Grown table later) :
    passage.Grown table (permissions.foldl (passage.autoApprove clock) later) := by
  induction permissions generalizing later with
  | nil => exact grown
  | cons permission rest ih =>
      have apart := apart_of_yolo (eligible List.mem_cons_self)
      apply ih (List.subset_of_cons_subset eligible)
      unfold autoApprove
      split
      · exact grown
      · exact grown.tryCreate rfl rfl rfl fun manual => absurd manual apart

/-- The permissions that a table does not approve. -/
def missing (passage : Passage) (clock : Clock) (table : RequestTable) (permissions : List String) :
    List String :=
  permissions.filter fun permission =>
    !isPermissionApproved clock table passage.serverId permission

/-- The requests for the permissions that an operator has to approve. -/
theorem grown_requireApproval {permissions : List String}
    (manual : permissions ⊆ passage.manualPermissions) {held : List String}
    (grown : passage.Grown table later)
    (asked : ∀ permission ∈ held,
      passage.requestId permission ∈ later.rows.map PermissionRequest.requestId) :
    passage.Grown table (permissions.foldl (passage.requireApproval clock) (later, held)).1 ∧
      (permissions.foldl (passage.requireApproval clock) (later, held)).2 =
        held ++ passage.missing clock table permissions ∧
      ∀ permission ∈ (permissions.foldl (passage.requireApproval clock) (later, held)).2,
        passage.requestId permission ∈
          (permissions.foldl (passage.requireApproval clock) (later, held)).1.rows.map
            PermissionRequest.requestId := by
  induction permissions generalizing later held with
  | nil => exact ⟨grown, by simp [missing], asked⟩
  | cons permission rest ih =>
      have here : isPermissionApproved clock later passage.serverId permission =
          isPermissionApproved clock table passage.serverId permission :=
        grown.approved (manual List.mem_cons_self)
      rw [List.foldl_cons]
      cases approved : isPermissionApproved clock later passage.serverId permission with
      | true =>
          rw [approved] at here
          have step : passage.requireApproval clock (later, held) permission = (later, held) := by
            simp [requireApproval, approved]
          have same : passage.missing clock table (permission :: rest) =
              passage.missing clock table rest := by
            simp [missing, ← here]
          rw [step, same]
          exact ih (List.subset_of_cons_subset manual) grown asked
      | false =>
          rw [approved] at here
          have step : passage.requireApproval clock (later, held) permission =
              (tryCreate later (passage.pendingRequest permission), held ++ [permission]) := by
            simp [requireApproval, approved]
          have same : held ++ passage.missing clock table (permission :: rest) =
              held ++ [permission] ++ passage.missing clock table rest := by
            simp [missing, ← here]
          rw [step, same]
          apply ih (List.subset_of_cons_subset manual)
          · exact grown.tryCreate rfl rfl rfl fun _ => rfl
          · intro other mem
            rcases List.mem_append.mp mem with before | now
            · exact List.map_subset _ subset_tryCreate (asked other before)
            · cases List.mem_singleton.mp now
              exact taken_tryCreate

/-- A gate holds a server for the permissions that the table it finds does not
approve, and leaves the id of each of them taken. -/
theorem permissionGate_spec (passage : Passage) (clock : Clock) (table : RequestTable) :
    passage.Grown table (passage.permissionGate clock table).1 ∧
      (passage.permissionGate clock table).2 =
        passage.missing clock table passage.manualPermissions ∧
      ∀ permission ∈ (passage.permissionGate clock table).2,
        passage.requestId permission ∈
          (passage.permissionGate clock table).1.rows.map PermissionRequest.requestId := by
  have eligible : passage.Grown table (passage.yoloPermissions.foldl (passage.autoApprove clock)
      table) :=
    grown_autoApprove (List.Subset.refl _) .refl
  exact grown_requireApproval (List.Subset.refl _) eligible
    (by intro permission none; cases none)

/-- A request whose id was free is pending under the server's own name. -/
theorem Grown.asked (grown : passage.Grown table later)
    (manual : permission ∈ passage.manualPermissions)
    (taken : passage.requestId permission ∈ later.rows.map PermissionRequest.requestId)
    (free : ∀ row ∈ table.rows, row.requestId ≠ passage.requestId permission) :
    ∃ row ∈ later.rows, row.pluginId = passage.serverId ∧ row.permissionType = permission ∧
      row.status = .pending ∧ requestUnexpired clock row = true := by
  rcases List.mem_map.mp taken with ⟨row, mem, named⟩
  rcases grown.new row mem with old | ⟨plugin, own, lasting, asked, _⟩
  · exact absurd named (free row old)
  · have type : row.permissionType = permission := requestId_inj (own.symm.trans named)
    refine ⟨row, mem, plugin, type, asked (by rw [type]; exact manual), ?_⟩
    simp [requestUnexpired, lasting]

/-- The requests that are pending for the permissions a server is held for. -/
def pendingIds (passage : Passage) (clock : Clock) (table : RequestTable) : List String :=
  ((passage.permissionGate clock table).1.rows.filter fun row =>
    row.pluginId == passage.serverId
      && (passage.permissionGate clock table).2.contains row.permissionType
      && row.status == .pending).map PermissionRequest.requestId

/-- A server is held so that it can be let go: each permission it is held for is asked
for under its own name, approving these requests lets it pass, and approving those
of other servers never does. -/
structure Answerable (passage : Passage) (clock : Clock) (table : RequestTable) : Prop where
  asked : ∀ permission ∈ (passage.permissionGate clock table).2,
    ∃ row ∈ (passage.permissionGate clock table).1.rows,
      row.pluginId = passage.serverId ∧ row.permissionType = permission ∧ row.status = .pending
  answered : ∀ now,
    (passage.permissionGate clock
      (approveAll (passage.permissionGate clock table).1 now
        (passage.pendingIds clock table))).2 = []
  apart : ∀ now requestIds,
    (∀ row ∈ (passage.permissionGate clock table).1.rows, row.requestId ∈ requestIds →
      row.pluginId ≠ passage.serverId) →
    (passage.permissionGate clock
      (approveAll (passage.permissionGate clock table).1 now requestIds)).2 =
        (passage.permissionGate clock table).2

/-- The id of each request that is to be made is free, or the server has a request for
the permission that is pending and does not lapse. -/
def Askable (passage : Passage) (clock : Clock) (table : RequestTable) : Prop :=
  ∀ permission ∈ passage.manualPermissions,
    isPermissionApproved clock table passage.serverId permission = false →
      (∀ row ∈ table.rows, row.requestId ≠ passage.requestId permission) ∨
        ∃ row ∈ table.rows, row.pluginId = passage.serverId ∧ row.permissionType = permission ∧
          row.status = .pending ∧ requestUnexpired clock row = true

theorem mem_missing_iff {permissions : List String} :
    permission ∈ passage.missing clock table permissions ↔
      permission ∈ permissions ∧
        isPermissionApproved clock table passage.serverId permission = false := by
  simp [missing]

/-- A permission that is asked for has a request that can be approved. -/
theorem exists_request (askable : passage.Askable clock table)
    (mem : permission ∈ (passage.permissionGate clock table).2) :
    ∃ row ∈ (passage.permissionGate clock table).1.rows,
      row.pluginId = passage.serverId ∧ row.permissionType = permission ∧ row.status = .pending ∧
        requestUnexpired clock row = true := by
  rcases passage.permissionGate_spec clock table with ⟨grown, held, taken⟩
  have isMissing := mem
  rw [held, mem_missing_iff] at isMissing
  rcases askable permission isMissing.1 isMissing.2 with free | ⟨row, rowMem, rest⟩
  · exact grown.asked isMissing.1 (taken permission mem) free
  · exact ⟨row, grown.old rowMem, rest⟩

theorem mem_pendingIds {row : PermissionRequest}
    (mem : row ∈ (passage.permissionGate clock table).1.rows)
    (plugin : row.pluginId = passage.serverId)
    (held : row.permissionType ∈ (passage.permissionGate clock table).2)
    (pending : row.status = .pending) : row.requestId ∈ passage.pendingIds clock table := by
  apply List.mem_map_of_mem
  simp [mem, plugin, held, pending]

/-- A server passes exactly if everything it requires is approved. -/
theorem permissionGate_passes_iff : (passage.permissionGate clock table).2 = [] ↔
    ∀ permission ∈ passage.manualPermissions,
      isPermissionApproved clock table passage.serverId permission = true := by
  rw [(passage.permissionGate_spec clock table).2.1, missing, List.filter_eq_nil_iff]
  simp

/-- A server that can be let go has been able to ask. -/
theorem Answerable.askable (answerable : passage.Answerable clock table) :
    passage.Askable clock table := by
  rcases passage.permissionGate_spec clock table with ⟨grown, _, _⟩
  intro permission manual lacking
  have approved := permissionGate_passes_iff.mp (answerable.answered "") permission manual
  rw [isPermissionApproved_approveAll, grown.approved manual, lacking] at approved
  rcases approved with absurdly | ⟨row, mem, _, pending, plugin, type, unexpired⟩
  · cases absurdly
  · rcases grown.new row mem with old | ⟨_, own, _, _, free⟩
    · exact .inr ⟨row, old, plugin, type, pending, unexpired⟩
    · left
      rw [own, type] at free
      intro other otherMem same
      apply free
      rw [← same]
      exact List.mem_map_of_mem otherMem

/-- Where it can ask, approving its requests lets the server pass. -/
theorem Askable.passes (askable : passage.Askable clock table) (now : String) :
    (passage.permissionGate clock
      (approveAll (passage.permissionGate clock table).1 now
        (passage.pendingIds clock table))).2 = [] := by
  rcases passage.permissionGate_spec clock table with ⟨grown, held, _⟩
  apply permissionGate_passes_iff.mpr
  intro permission manual
  rw [isPermissionApproved_approveAll]
  cases lacking : isPermissionApproved clock table passage.serverId permission with
  | true => exact .inl ((grown.approved manual).trans lacking)
  | false =>
      have mem : permission ∈ (passage.permissionGate clock table).2 := by
        rw [held, mem_missing_iff]
        exact ⟨manual, lacking⟩
      rcases exists_request askable mem with ⟨row, rowMem, plugin, type, pending, unexpired⟩
      have listed := mem_pendingIds rowMem plugin (by rw [type]; exact mem) pending
      exact .inr ⟨row, rowMem, listed, pending, plugin, type, unexpired⟩

end Gate

/-- A server that is held can be let go exactly if it can ask for what it lacks. -/
theorem answerable_iff (passage : Passage) (clock : Clock) (table : RequestTable) :
    passage.Answerable clock table ↔ passage.Askable clock table := by
  rcases passage.permissionGate_spec clock table with ⟨grown, held, _⟩
  constructor
  · exact Answerable.askable
  · intro askable
    constructor
    · intro permission mem
      rcases exists_request askable mem with ⟨row, rowMem, plugin, type, pending, _⟩
      exact ⟨row, rowMem, plugin, type, pending⟩
    · exact askable.passes
    · intro now requestIds others
      rw [(passage.permissionGate_spec clock _).2.1, held, missing, missing]
      apply List.filter_congr
      intro permission manual
      congr 1
      rw [Bool.eq_iff_iff, isPermissionApproved_approveAll, grown.approved manual]
      constructor
      · rintro (approved | ⟨row, mem, named, _, plugin, _⟩)
        · exact approved
        · exact absurd plugin (others row mem named)
      · exact .inl

/-! ## A request that was denied -/

/-- Every server that is held can be let go. -/
def AlwaysAnswerable : Prop :=
  ∀ (passage : Passage) (clock : Clock) (table : RequestTable), passage.Answerable clock table

/-- A server that requires one permission. -/
def networkPassage : Passage where
  source := .configured
  serverId := "files"
  command := "node"
  yolo := false
  yoloExceptions := []
  required := ["network"]
  now := "2026-01-02T00:00:00+00:00"

/-- The request of an earlier connection, which an operator has denied. -/
def deniedTable : RequestTable where
  rows := [{ networkPassage.pendingRequest "network" with status := .denied }]
  unique := List.nodup_singleton _

/-- The server is held, and no request is pending. -/
theorem not_alwaysAnswerable : ¬AlwaysAnswerable := by
  intro always
  have answerable := always networkPassage stoppedClock deniedTable
  have held : (networkPassage.permissionGate stoppedClock deniedTable).2 = ["network"] := by decide
  rcases answerable.asked "network" (by rw [held]; exact List.mem_singleton.mpr rfl) with
    ⟨row, mem, _, _, pending⟩
  have denied : ((networkPassage.permissionGate stoppedClock deniedTable).1.rows.all fun row =>
      row.status == .denied) = true := by decide
  have status := List.all_eq_true.mp denied row mem
  rw [pending] at status
  contradiction

end Passage

end ClotoCore.Access
