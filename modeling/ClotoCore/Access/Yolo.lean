import ClotoCore.Access.Replace
import ClotoCore.Access.Requests
import ClotoCore.Transition.Run

/-!
# A YOLO window

While the mode is on, agents may grant and revoke access rows, and a connection
approves what it requires.  Switching the mode off stores the flag, and deletes the
rows that agents were granted some time later.  It brings back no row that an agent
revoked, withdraws no approval, and does not wait for a grant or a connection that is
under way.
-/

namespace ClotoCore.Access

open ClotoCore.Transition

/-! ## What changes the tables -/

/-- The times and their texts. -/
structure Calendar where
  datetime : String → Option Int
  format : Int → String
  rfc3339 : Int → String

/-- The column of an entry type. -/
def EntryType.column : EntryType → String
  | .capability => "capability"
  | .serverGrant => "server_grant"
  | .toolGrant => "tool_grant"

/-- `granted_by LIKE 'yolo-grant:%'`, which does not tell letter case. -/
def isYoloGrant (entry : AccessControlEntry) : Bool :=
  entry.grantedBy.any fun name =>
    "yolo-grant:".toList.isPrefixOf (Encoding.toAsciiLowercase name).toList

/-- What an agent asks for with `mgp.access.grant`. -/
structure GrantRequest where
  agentId : String
  serverId : String
  entryType : EntryType
  toolName : Option String
  permission : PermissionLevel
  justification : Option String

/-- `YOLO_GRANT_TTL_HOURS`, in seconds. -/
def yoloGrantTtl : Int := 24 * 3600

/-- The row of `execute_access_grant`. -/
def GrantRequest.row (request : GrantRequest) (calendar : Calendar) (now : Int) :
    AccessControlEntry where
  entryType := request.entryType
  agentId := request.agentId
  serverId := request.serverId
  toolName := request.toolName
  permission := request.permission
  grantedBy := some ("yolo-grant:" ++ request.agentId)
  grantedAt := calendar.rfc3339 now
  expiresAt := some (calendar.format (now + yoloGrantTtl))
  justification := request.justification
  metadata := none

/-- What an agent asks for with `mgp.access.revoke`. -/
structure Revocation where
  agentId : String
  serverId : String
  entryType : String
  toolName : Option String
  deriving DecidableEq

/-- The rows that `delete_access_entry` deletes. -/
def isRevoked (revocation : Revocation) (entry : AccessControlEntry) : Bool :=
  entry.agentId == revocation.agentId && entry.serverId == revocation.serverId
    && entry.entryType.column == revocation.entryType && entry.toolName == revocation.toolName

/-- What an administrator does to the access rows, or an install. -/
inductive AdminAction where
  | putAccessEntries (serverId : String) (entries : List AccessControlEntry)
  | putAgentServerGrants (agentId : String) (serverIds : List String)
  | replaceAgentGrants (agentId serverId : String) (set : ServerGrantSet)
  | createAgent (agentId : String) (serverIds : List String)
  | removeAgent (agentId : String)
  | grantDefaultEngine (serverId : String) (agentIds : List String)

/-- A server grant that allows and does not expire. -/
def allowServer (grantedBy now : String) (justification : Option String)
    (agentId serverId : String) : AccessControlEntry :=
  { grantRow agentId serverId grantedBy now .serverGrant none .allow with justification }

namespace AdminAction

/-- The rows that an action leaves. -/
def keeps (action : AdminAction) (entry : AccessControlEntry) : Bool :=
  match action with
  | .putAccessEntries serverId _ => !(entry.serverId == serverId && isGrant entry)
  | .putAgentServerGrants agentId _ =>
      !(entry.agentId == agentId && entry.entryType == .serverGrant)
  | .replaceAgentGrants agentId serverId _ => !isReplaced agentId serverId entry
  | .createAgent _ _ => true
  | .removeAgent agentId => entry.agentId != agentId
  | .grantDefaultEngine _ _ => true

/-- The rows that it inserts: `grant_default_engine_to_agents` leaves an agent alone
that has a server grant, whatever it says. -/
def adds (action : AdminAction) (now : String) (rows : List AccessControlEntry) :
    List AccessControlEntry :=
  match action with
  | .putAccessEntries _ entries => entries.filter fun entry => entry.entryType != .capability
  | .putAgentServerGrants agentId serverIds =>
      serverIds.map (allowServer "admin" now none agentId)
  | .replaceAgentGrants agentId serverId set => set.rows agentId serverId "admin" now
  | .createAgent agentId serverIds =>
      serverIds.map
        (allowServer "system" now (some "Auto-granted during agent creation") agentId)
  | .removeAgent _ => []
  | .grantDefaultEngine serverId agentIds =>
      (agentIds.filter fun agentId =>
        !rows.any fun entry => entry.agentId == agentId && entry.serverId == serverId
          && entry.entryType == .serverGrant && entry.toolName == none).map
        fun agentId => allowServer "install:default-engine" now none agentId serverId

/-- The rows after an action. -/
def apply (action : AdminAction) (now : String) (rows : List AccessControlEntry) :
    List AccessControlEntry :=
  rows.filter action.keeps ++ action.adds now rows

end AdminAction

/-! ## Runs -/

/-- The mode, the time and the tables, what is under way (the calls of agents that have
passed the check of the mode, the connections that have read it, the requests they are
about to insert, and the purges to come), and a record of what administrators did: the
rows that they inserted and did not remove, and the requests that they approved. -/
structure Window where
  yolo : Bool
  now : Int
  rows : List AccessControlEntry
  requests : RequestTable
  granting : List AccessControlEntry
  revoking : List Revocation
  connecting : List Passage
  asking : List PermissionRequest
  purging : Nat
  standing : List AccessControlEntry
  adminApproved : List String

/-- A kernel whose tables are empty. -/
def Window.fresh (now : Int) : Window where
  yolo := false
  now := now
  rows := []
  requests := ⟨[], List.nodup_nil⟩
  granting := []
  revoking := []
  connecting := []
  asking := []
  purging := 0
  standing := []
  adminApproved := []

/-- The clock of the queries. -/
def Window.clock (window : Window) (calendar : Calendar) : Clock where
  datetime := calendar.datetime
  now := window.now

/-- The steps of a run. -/
inductive WindowAction where
  | admin (action : AdminAction)
  | decideRequest (requestId : String) (status : RequestStatus)
  | beginGrant (request : GrantRequest)
  | finishGrant (entry : AccessControlEntry)
  | beginRevoke (revocation : Revocation)
  | finishRevoke (revocation : Revocation)
  | beginConnect (passage : Passage)
  | checkPermission (place : Nat) (permission : String)
  | insertRequest (place : Nat)
  | setYolo (enabled : Bool)
  | purge (made : Bool)
  | elapse (seconds : Nat)

/-- The request that a passage makes for a permission it found no approval of: one that
approves it where the mode was on and the permission is no exception. -/
def Passage.request (passage : Passage) (permission : String) : PermissionRequest :=
  if permission ∈ passage.yoloPermissions then passage.autoApprovedRequest permission
  else passage.pendingRequest permission

/-- An administrator decides a request. -/
def Window.decideRequest (window : Window) (calendar : Calendar) (requestId : String)
    (status : RequestStatus) : Window :=
  match updatePermissionRequest window.requests requestId status "admin"
      (calendar.rfc3339 window.now) with
  | .error _ => window
  | .ok requests =>
      { window with
        requests
        adminApproved :=
          if status = .approved then requestId :: window.adminApproved else window.adminApproved }

/-- A connection looks for an approval, and asks for one if there is none. -/
def Window.check (window : Window) (calendar : Calendar) (passage : Passage)
    (permission : String) : Window :=
  if isPermissionApproved (window.clock calendar) window.requests passage.serverId permission then
    window
  else
    let request := Passage.request { passage with now := calendar.rfc3339 window.now } permission
    { window with asking := window.asking ++ [request] }

/-- `set_yolo_mode`, up to the store of the flag -/
def Window.setYolo (window : Window) (enabled : Bool) : Window :=
  { window with
    yolo := enabled
    purging := if enabled then window.purging else window.purging + 1 }

/-- `set_yolo_mode`, the deletion behind the other writes, which may fail -/
def Window.purge (window : Window) (made : Bool) : Window :=
  { window with
    rows := if made then window.rows.filter fun entry => !isYoloGrant entry else window.rows
    purging := window.purging - 1 }

/-- One step.  A grant, a revocation and a connection read the mode first, and write
later; a switch stores the mode first, and purges later. -/
def windowStep (calendar : Calendar) : Action Window WindowAction
  | window, .admin action => some
      { window with
        rows := action.apply (calendar.rfc3339 window.now) window.rows
        standing := window.standing.filter action.keeps
          ++ action.adds (calendar.rfc3339 window.now) window.rows }
  | window, .decideRequest requestId status =>
      some (window.decideRequest calendar requestId status)
  | window, .beginGrant request =>
      if window.yolo then
        some { window with granting := request.row calendar window.now :: window.granting }
      else none
  | window, .finishGrant entry =>
      if entry ∈ window.granting then
        some
          { window with
            rows := window.rows ++ [entry]
            granting := window.granting.erase entry }
      else none
  | window, .beginRevoke revocation =>
      if window.yolo then some { window with revoking := revocation :: window.revoking }
      else none
  | window, .finishRevoke revocation =>
      if revocation ∈ window.revoking then
        some
          { window with
            rows := window.rows.filter fun entry => !isRevoked revocation entry
            revoking := window.revoking.erase revocation }
      else none
  | window, .beginConnect passage => some
      { window with connecting := { passage with yolo := window.yolo } :: window.connecting }
  | window, .checkPermission place permission =>
      (window.connecting[place]?).bind fun passage =>
        if permission ∈ passage.required then some (window.check calendar passage permission)
        else none
  | window, .insertRequest place =>
      (window.asking[place]?).map fun request =>
        { window with
          requests := tryCreate window.requests request
          asking := window.asking.eraseIdx place }
  | window, .setYolo enabled => some (window.setYolo enabled)
  | window, .purge made => if 0 < window.purging then some (window.purge made) else none
  | window, .elapse seconds => some { window with now := window.now + seconds }

/-! ## No widening -/

/-- The rows that answer calls were inserted by administrators, who miss none of
theirs, and so were the approvals given. -/
structure NoWidening (calendar : Calendar) (window : Window) : Prop where
  answers : ∀ entry ∈ window.rows, unexpired (window.clock calendar) entry = true →
    entry ∈ window.standing
  kept : window.standing.Sublist window.rows
  approvals : ∀ row ∈ window.requests.rows,
    row.status = .approved ∨ row.status = .autoApproved → row.requestId ∈ window.adminApproved

/-- What is allowed from then on, the rows of before allow too. -/
def NoWider (calendar : Calendar) (before after : Window) : Prop :=
  ∀ (now : Int) (policies : String → Option String) (agentId serverId toolName : String),
    after.now ≤ now →
      resolveToolAccess ⟨calendar.datetime, now⟩ policies after.rows agentId serverId toolName =
          .allow →
        resolveToolAccess ⟨calendar.datetime, now⟩ policies before.rows agentId serverId toolName =
          .allow

/-- Whether a step is an administrator's on the access rows. -/
def WindowAction.isAdmin : WindowAction → Bool
  | .admin _ => true
  | _ => false

/-- In every state of a run in which the mode is off nothing is widened, and a part of
it between two such states without an administrator's step widens no access. -/
structure LeavesNoWidening (calendar : Calendar) (start : Window) (labels : List WindowAction) :
    Prop where
  states : ∀ count window,
    run (windowStep calendar) start (labels.take count) = some window → window.yolo = false →
      NoWidening calendar window
  windows : ∀ first second third before after, labels = first ++ second ++ third →
    run (windowStep calendar) start first = some before →
      run (windowStep calendar) before second = some after →
        before.yolo = false → after.yolo = false →
          (∀ label ∈ second, label.isAdmin = false) → NoWider calendar before after

/-- A step that leaves no widening behind: an administrator signs no row as an agent
does, a grant is inserted while the mode is on or when it has expired, a revocation meets
rows that agents were granted, a connection inserts no approval under a free id, and the
mode is switched off when no grant of an agent answers. -/
def Orderly (calendar : Calendar) (window : Window) : WindowAction → Prop
  | .admin action =>
      ∀ entry ∈ action.adds (calendar.rfc3339 window.now) window.rows, isYoloGrant entry = false
  | .finishGrant entry => window.yolo = true ∨ unexpired (window.clock calendar) entry = false
  | .finishRevoke revocation =>
      ∀ entry ∈ window.rows, isRevoked revocation entry = true → isYoloGrant entry = true
  | .insertRequest place =>
      ∀ request ∈ window.asking[place]?, request.status = .autoApproved →
        request.requestId ∈ window.requests.rows.map PermissionRequest.requestId
  | .setYolo enabled =>
      enabled = true ∨ ∀ entry ∈ window.rows, isYoloGrant entry = true →
        unexpired (window.clock calendar) entry = false
  | _ => True

/-- Whether a step is orderly can be computed. -/
instance (calendar : Calendar) (window : Window) (label : WindowAction) :
    Decidable (Orderly calendar window label) :=
  match label with
  | .admin _ => inferInstanceAs (Decidable (∀ entry ∈ _, isYoloGrant entry = false))
  | .decideRequest _ _ => isTrue trivial
  | .beginGrant _ => isTrue trivial
  | .finishGrant entry =>
      inferInstanceAs (Decidable (window.yolo = true ∨
        unexpired (window.clock calendar) entry = false))
  | .beginRevoke _ => isTrue trivial
  | .finishRevoke revocation =>
      inferInstanceAs (Decidable (∀ entry ∈ window.rows,
        isRevoked revocation entry = true → isYoloGrant entry = true))
  | .beginConnect _ => isTrue trivial
  | .checkPermission _ _ => isTrue trivial
  | .insertRequest place =>
      inferInstanceAs (Decidable (∀ request ∈ window.asking[place]?,
        request.status = .autoApproved →
          request.requestId ∈ window.requests.rows.map PermissionRequest.requestId))
  | .setYolo enabled =>
      inferInstanceAs (Decidable (enabled = true ∨ ∀ entry ∈ window.rows,
        isYoloGrant entry = true → unexpired (window.clock calendar) entry = false))
  | .purge _ => isTrue trivial
  | .elapse _ => isTrue trivial

/-- What orderly steps preserve. -/
structure Ordered (calendar : Calendar) (window : Window) : Prop where
  standing : window.standing = window.rows.filter fun entry => !isYoloGrant entry
  off : window.yolo = false → ∀ entry ∈ window.rows, isYoloGrant entry = true →
    unexpired (window.clock calendar) entry = false
  granting : ∀ entry ∈ window.granting, isYoloGrant entry = true
  asking : ∀ request ∈ window.asking, request.status ≠ .approved
  approvals : ∀ row ∈ window.requests.rows,
    row.status = .approved ∨ row.status = .autoApproved → row.requestId ∈ window.adminApproved

section Steps

variable {calendar : Calendar} {window next : Window} {label : WindowAction}

theorem isYoloGrant_row (request : GrantRequest) (now : Int) :
    isYoloGrant (request.row calendar now) = true := by
  have lower : "yolo-grant:".toList.map Encoding.lowerChar = "yolo-grant:".toList := by decide
  simp only [isYoloGrant, GrantRequest.row, Option.any_some, Encoding.toAsciiLowercase,
    String.toList_ofList, String.toList_append, List.map_append, lower]
  rw [List.isPrefixOf_iff_prefix]
  exact List.prefix_append _ _

theorem status_request (passage : Passage) (permission : String) :
    (passage.request permission).status ≠ .approved := by
  unfold Passage.request
  split
  · intro same
    cases same
  · intro same
    cases same

/-- What has expired stays so. -/
theorem expired_later {entry : AccessControlEntry} {datetime : String → Option Int}
    {now later : Int} (expired : unexpired ⟨datetime, now⟩ entry = false) (order : now ≤ later) :
    unexpired ⟨datetime, later⟩ entry = false := by
  unfold unexpired at expired ⊢
  split at expired
  · cases expired
  · rename_i text _
    dsimp only at expired ⊢
    split at expired
    · rfl
    · simp only [decide_eq_false_iff_not, Int.not_lt] at expired ⊢
      exact expired.trans order

/-- Rows that no agent was granted are filtered as they are. -/
theorem filter_standing {added : List AccessControlEntry}
    (signed : ∀ entry ∈ added, isYoloGrant entry = false) :
    (added.filter fun entry => !isYoloGrant entry) = added := by
  apply List.filter_eq_self.mpr
  intro entry mem
  rw [signed entry mem]
  rfl

theorem ordered_fresh (calendar : Calendar) (now : Int) : Ordered calendar (Window.fresh now) where
  standing := rfl
  off := fun _ _ none => nomatch none
  granting := fun _ none => nomatch none
  asking := fun _ none => nomatch none
  approvals := fun _ none => nomatch none

/-- Step: an administrator's action. -/
theorem Ordered.admin (ordered : Ordered calendar window) (action : AdminAction) {now : String}
    (signed : ∀ entry ∈ action.adds now window.rows, isYoloGrant entry = false) :
    Ordered calendar
      { window with
        rows := action.apply now window.rows
        standing := window.standing.filter action.keeps ++ action.adds now window.rows } where
  standing := by
    change window.standing.filter action.keeps ++ action.adds now window.rows =
      (action.apply now window.rows).filter fun entry => !isYoloGrant entry
    rw [AdminAction.apply, List.filter_append, filter_standing signed, ordered.standing,
      List.filter_filter, List.filter_filter]
    congr 2
    funext entry
    exact Bool.and_comm _ _
  off := by
    intro off entry mem granted
    rcases List.mem_append.mp mem with kept | added
    · exact ordered.off off entry (List.mem_filter.mp kept).1 granted
    · rw [signed entry added] at granted
      cases granted
  granting := ordered.granting
  asking := ordered.asking
  approvals := ordered.approvals

/-- Step: the insert of a grant while the mode is on, or of one that has expired. -/
theorem Ordered.finishGrant (ordered : Ordered calendar window) {entry : AccessControlEntry}
    (granted : entry ∈ window.granting)
    (harmless : window.yolo = true ∨ unexpired (window.clock calendar) entry = false) :
    Ordered calendar
      { window with
        rows := window.rows ++ [entry]
        granting := window.granting.erase entry } where
  standing := by
    change window.standing = (window.rows ++ [entry]).filter fun entry => !isYoloGrant entry
    rw [List.filter_append, ordered.standing]
    simp [ordered.granting entry granted]
  off := by
    intro off other mem otherGranted
    change window.yolo = false at off
    rcases List.mem_append.mp mem with old | new
    · exact ordered.off off other old otherGranted
    · rw [List.mem_singleton.mp new]
      rcases harmless with on | expired
      · rw [on] at off
        cases off
      · exact expired
  granting := fun other mem => ordered.granting other (List.mem_of_mem_erase mem)
  asking := ordered.asking
  approvals := ordered.approvals

/-- Step: the deletion of rows that agents were granted. -/
theorem Ordered.finishRevoke (ordered : Ordered calendar window) {revocation : Revocation}
    (own : ∀ entry ∈ window.rows, isRevoked revocation entry = true → isYoloGrant entry = true) :
    Ordered calendar
      { window with
        rows := window.rows.filter fun entry => !isRevoked revocation entry
        revoking := window.revoking.erase revocation } where
  standing := by
    change window.standing = (window.rows.filter fun entry => !isRevoked revocation entry).filter
      fun entry => !isYoloGrant entry
    rw [ordered.standing, List.filter_filter]
    apply List.filter_congr
    intro entry mem
    cases revoked : isRevoked revocation entry with
    | false => simp
    | true => simp [own entry mem revoked]
  off := fun off entry mem => ordered.off off entry (List.mem_filter.mp mem).1
  granting := ordered.granting
  asking := ordered.asking
  approvals := ordered.approvals

/-- Step: a switch of the mode. -/
theorem Ordered.setYolo (ordered : Ordered calendar window) {enabled : Bool}
    (silent : enabled = true ∨ ∀ entry ∈ window.rows, isYoloGrant entry = true →
      unexpired (window.clock calendar) entry = false) :
    Ordered calendar (window.setYolo enabled) where
  standing := ordered.standing
  off := by
    intro off
    change enabled = false at off
    rcases silent with on | expired
    · rw [on] at off
      cases off
    · exact expired
  granting := ordered.granting
  asking := ordered.asking
  approvals := ordered.approvals

/-- Step: a purge, made or not. -/
theorem Ordered.purge (ordered : Ordered calendar window) (made : Bool) :
    Ordered calendar (window.purge made) where
  standing := by
    cases made with
    | true => simp [Window.purge, ordered.standing, List.filter_filter]
    | false => exact ordered.standing
  off := by
    intro off entry mem
    apply ordered.off off entry
    cases made with
    | true => exact (List.mem_filter.mp mem).1
    | false => exact mem
  granting := ordered.granting
  asking := ordered.asking
  approvals := ordered.approvals

/-- Step: a connection looks for an approval. -/
theorem Ordered.check (ordered : Ordered calendar window) (passage : Passage)
    (permission : String) : Ordered calendar (window.check calendar passage permission) := by
  unfold Window.check
  split
  · exact ordered
  · refine ⟨ordered.standing, ordered.off, ordered.granting, ?_, ordered.approvals⟩
    intro request mem
    rcases List.mem_append.mp mem with earlier | new
    · exact ordered.asking request earlier
    · rw [List.mem_singleton.mp new]
      exact status_request _ permission

/-- Step: the insert of a request, under an id that is taken where it approves. -/
theorem Ordered.insertRequest (ordered : Ordered calendar window) {request : PermissionRequest}
    {place : Nat} (asked : request ∈ window.asking)
    (settled : request.status = .autoApproved →
      request.requestId ∈ window.requests.rows.map PermissionRequest.requestId) :
    Ordered calendar
      { window with
        requests := tryCreate window.requests request
        asking := window.asking.eraseIdx place } where
  standing := ordered.standing
  off := ordered.off
  granting := ordered.granting
  asking := fun other mem => ordered.asking other (List.mem_of_mem_eraseIdx mem)
  approvals := by
    intro row mem approved
    rcases mem_tryCreate mem with old | ⟨rfl, free⟩
    · exact ordered.approvals row old approved
    · rcases approved with operator | mode
      · exact absurd operator (ordered.asking request asked)
      · exact absurd (settled mode) free

/-- Step: time passes. -/
theorem Ordered.elapse (ordered : Ordered calendar window) (seconds : Nat) :
    Ordered calendar { window with now := window.now + seconds } where
  standing := ordered.standing
  off := fun off entry mem granted =>
    expired_later (ordered.off off entry mem granted)
      (Int.le_add_of_nonneg_right (Int.natCast_nonneg _))
  granting := ordered.granting
  asking := ordered.asking
  approvals := ordered.approvals

/-- Step: a decision of an administrator. -/
theorem Ordered.decideRequest (ordered : Ordered calendar window) (requestId : String)
    (status : RequestStatus) :
    Ordered calendar (window.decideRequest calendar requestId status) := by
  unfold Window.decideRequest
  split
  · exact ordered
  · rename_i requests updated
    refine ⟨ordered.standing, ordered.off, ordered.granting, ordered.asking, ?_⟩
    intro row mem approved
    unfold updatePermissionRequest at updated
    split at updated
    · cases updated
    · rename_i known
      split at updated
      · cases updated
        rcases List.mem_map.mp mem with ⟨before, beforeMem, rfl⟩
        by_cases decided : before.requestId = requestId ∧ before.status = .pending
        · rw [decideRow, if_pos decided] at approved ⊢
          have isApproved : status = .approved := by
            cases status <;> simp_all
          simp [isApproved, decided.1]
        · rw [decideRow, if_neg decided] at approved ⊢
          have earlier := ordered.approvals before beforeMem approved
          dsimp only
          split
          · exact List.mem_cons_of_mem _ earlier
          · exact earlier
      · cases updated

/-- Step: an orderly step. -/
theorem Ordered.step (ordered : Ordered calendar window) (orderly : Orderly calendar window label)
    (stepped : windowStep calendar window label = some next) : Ordered calendar next := by
  cases label with
  | admin action =>
      cases stepped
      exact ordered.admin action orderly
  | decideRequest requestId status =>
      cases stepped
      exact ordered.decideRequest requestId status
  | beginGrant request =>
      simp only [windowStep] at stepped
      split at stepped
      · cases stepped
        refine ⟨ordered.standing, ordered.off, ?_, ordered.asking, ordered.approvals⟩
        intro entry mem
        rcases List.mem_cons.mp mem with rfl | earlier
        · exact isYoloGrant_row request window.now
        · exact ordered.granting entry earlier
      · cases stepped
  | finishGrant entry =>
      simp only [windowStep] at stepped
      split at stepped
      · rename_i granted
        cases stepped
        exact ordered.finishGrant granted orderly
      · cases stepped
  | beginRevoke revocation =>
      simp only [windowStep] at stepped
      split at stepped
      · cases stepped
        exact ⟨ordered.standing, ordered.off, ordered.granting, ordered.asking,
          ordered.approvals⟩
      · cases stepped
  | finishRevoke revocation =>
      simp only [windowStep] at stepped
      split at stepped
      · cases stepped
        exact ordered.finishRevoke orderly
      · cases stepped
  | beginConnect passage =>
      cases stepped
      exact ⟨ordered.standing, ordered.off, ordered.granting, ordered.asking, ordered.approvals⟩
  | checkPermission place permission =>
      obtain ⟨passage, -, stepped⟩ := Option.bind_eq_some_iff.mp stepped
      split at stepped
      · cases stepped
        exact ordered.check passage permission
      · cases stepped
  | insertRequest place =>
      obtain ⟨request, asked, rfl⟩ := Option.map_eq_some_iff.mp stepped
      exact ordered.insertRequest (List.mem_of_getElem? asked) (orderly request asked)
  | setYolo enabled =>
      cases stepped
      exact ordered.setYolo orderly
  | purge made =>
      simp only [windowStep] at stepped
      split at stepped
      · cases stepped
        exact ordered.purge made
      · cases stepped
  | elapse seconds =>
      cases stepped
      exact ordered.elapse seconds

/-- A step that is no administrator's leaves the record of the rows alone, and no step
turns time back. -/
theorem standing_step (other : label.isAdmin = false)
    (stepped : windowStep calendar window label = some next) :
    next.standing = window.standing ∧ window.now ≤ next.now := by
  cases label with
  | admin action => cases other
  | decideRequest requestId status =>
      cases stepped
      unfold Window.decideRequest
      split <;> exact ⟨rfl, le_rfl⟩
  | beginGrant request | finishGrant entry | beginRevoke revocation | finishRevoke revocation
  | purge made =>
      simp only [windowStep] at stepped
      split at stepped
      · cases stepped
        exact ⟨rfl, le_rfl⟩
      · cases stepped
  | checkPermission place permission =>
      obtain ⟨passage, -, stepped⟩ := Option.bind_eq_some_iff.mp stepped
      split at stepped
      · cases stepped
        unfold Window.check
        split <;> exact ⟨rfl, le_rfl⟩
      · cases stepped
  | insertRequest place =>
      obtain ⟨request, -, rfl⟩ := Option.map_eq_some_iff.mp stepped
      exact ⟨rfl, le_rfl⟩
  | beginConnect passage | setYolo enabled =>
      cases stepped
      exact ⟨rfl, le_rfl⟩
  | elapse seconds =>
      cases stepped
      exact ⟨rfl, Int.le_add_of_nonneg_right (Int.natCast_nonneg _)⟩

/-- Run: what orderly steps lead to. -/
theorem ordered_run {start : Window} {labels : List WindowAction} (ordered : Ordered calendar start)
    (orderly : Along (windowStep calendar) (Orderly calendar) start labels)
    (ran : run (windowStep calendar) start labels = some window) : Ordered calendar window :=
  run_invariant_along (Ordered calendar)
    (fun _ _ _ ordered orderly stepped => ordered.step orderly stepped) ordered orderly ran

/-- Run: steps of others leave the record of the rows alone. -/
theorem standing_run {start : Window} {labels : List WindowAction}
    (others : ∀ label ∈ labels, label.isAdmin = false)
    (ran : run (windowStep calendar) start labels = some window) :
    window.standing = start.standing ∧ start.now ≤ window.now := by
  induction labels generalizing start with
  | nil =>
      cases ran
      exact ⟨rfl, le_rfl⟩
  | cons label rest ih =>
      rcases run_cons_eq_some_iff.mp ran with ⟨middle, stepped, ran⟩
      obtain ⟨restEq, restLater⟩ :=
        ih (fun other mem => others other (List.mem_cons_of_mem _ mem)) ran
      obtain ⟨headEq, headLater⟩ := standing_step (others label List.mem_cons_self) stepped
      exact ⟨restEq.trans headEq, headLater.trans restLater⟩

/-- From a state in which the mode is off on, the rows answer as those that administrators
left. -/
theorem Ordered.resolve_eq (ordered : Ordered calendar window) (off : window.yolo = false)
    {now : Int} (later : window.now ≤ now) (policies : String → Option String)
    (agentId serverId toolName : String) :
    resolveToolAccess ⟨calendar.datetime, now⟩ policies window.rows agentId serverId toolName =
      resolveToolAccess ⟨calendar.datetime, now⟩ policies window.standing agentId serverId
        toolName := by
  have silent : ∀ entry ∈ window.rows, unexpired ⟨calendar.datetime, now⟩ entry = true →
      isYoloGrant entry = false := by
    intro entry mem answers
    cases granted : isYoloGrant entry with
    | false => rfl
    | true =>
        rw [expired_later (ordered.off off entry mem granted) later] at answers
        cases answers
  have same : window.rows.filter (unexpired ⟨calendar.datetime, now⟩) =
      window.standing.filter (unexpired ⟨calendar.datetime, now⟩) := by
    rw [ordered.standing, List.filter_filter]
    apply List.filter_congr
    intro entry mem
    cases answers : unexpired ⟨calendar.datetime, now⟩ entry with
    | false => rfl
    | true => simp [silent entry mem answers]
  rw [← resolveToolAccess_filter (fun _ answers => answers), same,
    resolveToolAccess_filter fun _ answers => answers]

end Steps

/-- A run of orderly steps leaves no widening behind. -/
theorem leavesNoWidening (calendar : Calendar) (now : Int) (labels : List WindowAction)
    (orderly : Along (windowStep calendar) (Orderly calendar) (Window.fresh now) labels) :
    LeavesNoWidening calendar (Window.fresh now) labels := by
  constructor
  · intro count window passed off
    have ordered := ordered_run (ordered_fresh calendar now) (orderly.take count) passed
    constructor
    · intro entry mem answers
      rw [ordered.standing, List.mem_filter]
      refine ⟨mem, ?_⟩
      cases granted : isYoloGrant entry with
      | false => rfl
      | true =>
          rw [ordered.off off entry mem granted] at answers
          cases answers
    · rw [ordered.standing]
      exact List.filter_sublist
    · exact ordered.approvals
  · intro first second third before after split ranFirst ranSecond offBefore offAfter others
    rw [split] at orderly
    have ranBoth := run_append_eq_some_iff.mpr ⟨before, ranFirst, ranSecond⟩
    have orderedBefore :=
      ordered_run (ordered_fresh calendar now) orderly.of_append.of_append ranFirst
    have orderedAfter := ordered_run (ordered_fresh calendar now) orderly.of_append ranBoth
    obtain ⟨sameStanding, later⟩ := standing_run others ranSecond
    intro time policies agentId serverId toolName afterwards allowed
    rw [orderedAfter.resolve_eq offAfter afterwards, sameStanding] at allowed
    rw [orderedBefore.resolve_eq offBefore (later.trans afterwards)]
    exact allowed

/-! ## A Deny that an agent revokes -/

/-- No run leaves a widening behind. -/
def NeverWidening : Prop :=
  ∀ (calendar : Calendar) (now : Int) (labels : List WindowAction),
    LeavesNoWidening calendar (Window.fresh now) labels

/-- A calendar that reads no text. -/
def plainCalendar : Calendar where
  datetime := fun _ => none
  format := fun _ => ""
  rfc3339 := fun _ => ""

/-- A Deny of an administrator. -/
def denyReadFile : AdminAction :=
  .putAccessEntries "files" [toolGrant .deny]

/-- The revocation of that Deny. -/
def revokeReadFile : Revocation :=
  ⟨"agent.a", "files", "tool_grant", some "read_file"⟩

/-- What an agent grants itself. -/
def grantReadFile : GrantRequest where
  agentId := "agent.b"
  serverId := "files"
  entryType := .toolGrant
  toolName := some "read_file"
  permission := .allow
  justification := none

/-- A window in which an agent grants itself a tool, gives it back, and the mode is
switched off. -/
def grantingWindow : List WindowAction :=
  [.admin denyReadFile, .setYolo true, .beginGrant grantReadFile,
    .finishGrant (grantReadFile.row plainCalendar 0),
    .beginRevoke ⟨"agent.b", "files", "tool_grant", some "read_file"⟩,
    .finishRevoke ⟨"agent.b", "files", "tool_grant", some "read_file"⟩,
    .setYolo false, .purge true]

theorem leavesNoWidening_grantingWindow :
    LeavesNoWidening plainCalendar (Window.fresh 0) grantingWindow :=
  leavesNoWidening plainCalendar 0 grantingWindow (by decide +kernel)

/-- A window in which an agent revokes a Deny. -/
def revokingWindow : List WindowAction :=
  [.admin denyReadFile, .setYolo true, .beginRevoke revokeReadFile,
    .finishRevoke revokeReadFile, .setYolo false, .purge true]

/-- What the window leaves. -/
def revokedWindow : Window :=
  { Window.fresh 0 with standing := [toolGrant .deny] }

/-- The Deny is gone when the mode is off. -/
theorem not_neverWidening : ¬NeverWidening := by
  intro never
  have passed : run (windowStep plainCalendar) (Window.fresh 0) (revokingWindow.take 6) =
      some revokedWindow := rfl
  have widening := (never plainCalendar 0 revokingWindow).states 6 revokedWindow passed rfl
  cases widening.kept

end ClotoCore.Access
