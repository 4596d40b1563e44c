import ClotoCore.Approval.Classification
import ClotoCore.Encoding.Text

/-!
# The command approval gate

For each batch of tool calls the gate collects the calls that nobody has
approved yet, asks once about all of them, and returns the ids of the calls that
must not run.
-/

namespace ClotoCore.Approval

open ClotoCore.Encoding

/-- `ToolCall`. -/
structure ToolCall where
  id : String
  name : String
  arguments : Json.Value

/-- `CommandApprovalDecision`. -/
inductive CommandApprovalDecision where
  | approve
  | trust
  | deny
  deriving DecidableEq

/-- The two levels that `command_severity` derives. -/
inductive Severity where
  | warning
  | error
  deriving DecidableEq

/-- What kind of call a decision was about. -/
inductive CallKind where
  | shell
  | tool
  deriving DecidableEq

/-- A row of `trusted_commands`. -/
structure TrustedCommand where
  agentId : String
  pattern : String
  patternType : String
  deriving DecidableEq

/-- The table `trusted_commands`; `timesOut` says for which agent and pattern the
database does not answer. -/
structure TrustStore where
  rows : List TrustedCommand
  timesOut : String → String → Bool

/-- The exact-match row for a command. -/
def exactRow (agentId command : String) : TrustedCommand :=
  ⟨agentId, command, "exact"⟩

/-- `is_command_trusted`. -/
def TrustStore.isCommandTrusted (store : TrustStore) (agentId command : String) : Option Bool :=
  if store.timesOut agentId command then none
  else some (0 < store.rows.countP fun row => row = exactRow agentId command)

/-- `add_trusted_command`: the errors are ignored, the row is unique. -/
def TrustStore.addTrustedCommand (store : TrustStore) (agentId command : String) : TrustStore :=
  if store.timesOut agentId command ∨ exactRow agentId command ∈ store.rows then store
  else { store with rows := store.rows ++ [exactRow agentId command] }

/-- A decision to trust a name for the session. -/
structure TrustDecision where
  agentId : String
  kind : CallKind
  name : String
  deriving DecidableEq

/-- `SessionTrustedCommands`: the names that each agent may use.  `decisions`
records what they were decided on; the gate does not read it. -/
structure SessionTrust where
  names : List (String × String)
  decisions : List TrustDecision
  recorded : ∀ agentId name,
    (agentId, name) ∈ names ↔ ∃ kind, (⟨agentId, kind, name⟩ : TrustDecision) ∈ decisions

/-- Nothing is trusted when the kernel starts. -/
def SessionTrust.empty : SessionTrust where
  names := []
  decisions := []
  recorded := by simp

/-- One command that the gate asks about, as the dashboard gets it; `kind` is not
part of it. -/
structure ApprovalEntry where
  callId : String
  command : String
  commandName : String
  severity : Severity
  kind : CallKind
  deriving DecidableEq

/-- Insert the names of the entries that were asked about. -/
def SessionTrust.insertAll (session : SessionTrust) (agentId : String)
    (entries : List ApprovalEntry) : SessionTrust where
  names := session.names ++ entries.map fun entry => (agentId, entry.commandName)
  decisions := session.decisions ++ entries.map fun entry =>
    ⟨agentId, entry.kind, entry.commandName⟩
  recorded := by
    intro other name
    simp only [List.mem_append, List.mem_map, session.recorded, Prod.mk.injEq,
      TrustDecision.mk.injEq]
    constructor
    · rintro (⟨kind, mem⟩ | ⟨entry, mem, rfl, rfl⟩)
      · exact ⟨kind, .inl mem⟩
      · exact ⟨entry.kind, .inr ⟨entry, mem, rfl, rfl, rfl⟩⟩
    · rintro ⟨kind, mem | ⟨entry, mem, rfl, _, rfl⟩⟩
      · exact .inl ⟨kind, mem⟩
      · exact .inr ⟨entry, mem, rfl, rfl⟩

/-- `command_severity`. -/
def commandSeverity : Option RiskLevel → Severity
  | some .dangerous => .error
  | some .moderate => .warning
  | some .safe => .warning
  | none => .error

/-- `more_severe`. -/
def moreSevere (first second : Severity) : Severity :=
  if first = .error ∨ second = .error then .error else .warning

/-- The name under which a shell command is trusted: its first word. -/
def commandName (command : String) : String :=
  (firstWord command).getD command

/-- Whether a tool without sandbox validator needs an approval. -/
def needsApproval (manager : McpClientManager) (toolName : String) : Bool :=
  match manager.getToolRiskLevel toolName with
  | some .safe => false
  | some _ => true
  | none =>
      if McpClientManager.isKernelNativeTool toolName then false
      else manager.isToolDestructive toolName

/-- Whether the kernel routes the call to the sandbox validator. -/
def Sandboxed (manager : McpClientManager) (call : ToolCall) : Prop :=
  manager.getToolValidator call.name = some "sandbox"

instance (manager : McpClientManager) (call : ToolCall) : Decidable (Sandboxed manager call) :=
  inferInstanceAs (Decidable (_ = _))

/-- The entry that a call adds in the loop of `collect_untrusted_commands`. -/
def untrustedCommand (manager : McpClientManager) (store : TrustStore) (session : SessionTrust)
    (agentId : String) (call : ToolCall) : Option ApprovalEntry :=
  if ¬ Sandboxed manager call then
    if needsApproval manager call.name ∧ (agentId, call.name) ∉ session.names then
      some
        { callId := call.id
          command := "[destructive] " ++ call.name
          commandName := call.name
          severity := commandSeverity (manager.getToolRiskLevel call.name)
          kind := .tool }
    else none
  else
    match call.arguments.getStr "command" with
    | none => none
    | some command =>
        let dbTrusted := (store.isCommandTrusted agentId command).getD false
        if ¬ dbTrusted ∧ (agentId, commandName command) ∉ session.names then
          some
            { callId := call.id
              command := command
              commandName := commandName command
              severity := .error
              kind := .shell }
        else none

/-- One round of the loop: push the entry and raise the severity of the batch. -/
def collectCall (manager : McpClientManager) (store : TrustStore) (session : SessionTrust)
    (agentId : String) (collected : List ApprovalEntry × Severity) (call : ToolCall) :
    List ApprovalEntry × Severity :=
  match untrustedCommand manager store session agentId call with
  | some entry => (collected.1 ++ [entry], moreSevere collected.2 entry.severity)
  | none => collected

/-- `collect_untrusted_commands`: the entries and the severity of the batch. -/
def collectUntrustedCommands (manager : McpClientManager) (store : TrustStore)
    (session : SessionTrust) (agentId : String) (calls : List ToolCall) :
    List ApprovalEntry × Severity :=
  calls.foldl (collectCall manager store session agentId) ([], .warning)

/-- `extract_denied_ids`. -/
def extractDeniedIds (entries : List ApprovalEntry) : List String :=
  entries.map ApprovalEntry.callId

/-- What the gate announces and records. -/
inductive Announcement where
  | audit (eventType : String) (items : List String)
  | requested (agentId : String) (severity : Severity) (entries : List ApprovalEntry)
  | result (decision : String)
  | unanswered (severity : Severity) (entries : List ApprovalEntry)
  deriving DecidableEq

/-- What the gate leaves behind. -/
structure GateOutcome where
  denied : List String
  store : TrustStore
  session : SessionTrust
  announcements : List Announcement

/-- `process_approval_decision`; no decision stands for a dropped responder. -/
def processApprovalDecision (decision : Option CommandApprovalDecision) (agentId : String)
    (entries : List ApprovalEntry) (severity : Severity) (store : TrustStore)
    (session : SessionTrust) : GateOutcome :=
  match decision with
  | some .approve =>
      { denied := []
        store := entries.foldl (fun store entry => store.addTrustedCommand agentId entry.command)
          store
        session := session
        announcements := [.result "approved"] }
  | some .trust =>
      { denied := []
        store := store
        session := session.insertAll agentId entries
        announcements := [.result "trusted"] }
  | some .deny =>
      { denied := extractDeniedIds entries
        store := store
        session := session
        announcements := [.result "denied by user"] }
  | none =>
      { denied := extractDeniedIds entries
        store := store
        session := session
        announcements := [.result "channel closed", .unanswered severity entries] }

/-- What `handle_cron_approval` announces. -/
def cronAnnouncements (calls : List ToolCall) : List Announcement :=
  if calls = [] then []
  else [.audit "CRON_AUTO_APPROVED" (calls.map ToolCall.name), .result "cron_auto_approved"]

/-- What `handle_yolo_approval` announces. -/
def yoloAnnouncements (calls : List ToolCall) : List Announcement :=
  if calls = [] then []
  else
    [.audit "YOLO_AUTO_APPROVED" (calls.map fun call =>
      (call.arguments.getStr "command").getD ("[tool] " ++ call.name)), .result "auto_approved"]

/-- `run_approval_gate`. -/
def runApprovalGate (manager : McpClientManager) (store : TrustStore) (session : SessionTrust)
    (agentId : String) (calls : List ToolCall) (yoloMode cronSource : Bool)
    (decision : Option CommandApprovalDecision) : GateOutcome :=
  if cronSource then ⟨[], store, session, cronAnnouncements calls⟩
  else if yoloMode then ⟨[], store, session, yoloAnnouncements calls⟩
  else
    let collected := collectUntrustedCommands manager store session agentId calls
    if collected.1 = [] then ⟨[], store, session, []⟩
    else
      let outcome := processApprovalDecision decision agentId collected.1 collected.2 store session
      { outcome with
        announcements := .requested agentId collected.2 collected.1 :: outcome.announcements }

end ClotoCore.Approval
