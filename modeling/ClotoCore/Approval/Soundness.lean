import ClotoCore.Approval.Gate

/-!
# What the gate lets through

A call that the gate does not deny should be harmless by its classification,
trusted from an earlier decision about a call of its own kind, or approved just
now.  Two kinds of call are none of these and still get through: a sandbox call
without a command text, which the loop skips, and a call whose name was trusted
by a decision on a call of the other kind, because the session keeps one set of
names for both.
-/

namespace ClotoCore.Approval

open ClotoCore.Encoding

variable {manager : McpClientManager} {store : TrustStore} {session : SessionTrust}
  {agentId : String} {call : ToolCall}

/-- The call needs no approval by its classification. -/
def NotSubject (manager : McpClientManager) (call : ToolCall) : Prop :=
  ¬ Sandboxed manager call ∧
    (McpClientManager.isKernelNativeTool call.name ∨
      manager.getToolRiskLevel call.name = some .safe ∨
      manager.getToolRiskLevel call.name = none ∧ manager.isToolDestructive call.name = false)

/-- The command text of a shell call. -/
def ToolCall.command (call : ToolCall) : Option String :=
  call.arguments.getStr "command"

/-- The call was trusted for the agent by a decision on a call of its own kind. -/
def TrustedAsItsKind (manager : McpClientManager) (store : TrustStore) (session : SessionTrust)
    (agentId : String) (call : ToolCall) : Prop :=
  if Sandboxed manager call then
    ∃ command, call.command = some command ∧
      (exactRow agentId command ∈ store.rows ∨
        ⟨agentId, .shell, commandName command⟩ ∈ session.decisions)
  else ⟨agentId, .tool, call.name⟩ ∈ session.decisions

/-- The gate has to ask about the call: it needs an approval, the database does
not confirm one, and its name is not in the session's set. -/
def MustAsk (manager : McpClientManager) (store : TrustStore) (session : SessionTrust)
    (agentId : String) (call : ToolCall) : Prop :=
  if Sandboxed manager call then
    ∃ command, call.command = some command ∧
      store.isCommandTrusted agentId command ≠ some true ∧
      (agentId, commandName command) ∉ session.names
  else needsApproval manager call.name = true ∧ (agentId, call.name) ∉ session.names

/-- The call gets past the question without a reason: a sandbox call without a
command text, or a call whose name is only trusted for calls of the other kind. -/
def Escapes (manager : McpClientManager) (store : TrustStore) (session : SessionTrust)
    (agentId : String) (call : ToolCall) : Prop :=
  if Sandboxed manager call then
    match call.command with
    | none => True
    | some command =>
        exactRow agentId command ∉ store.rows ∧
          (agentId, commandName command) ∈ session.names ∧
          ⟨agentId, .shell, commandName command⟩ ∉ session.decisions
  else
    ¬ NotSubject manager call ∧ (agentId, call.name) ∈ session.names ∧
      ⟨agentId, .tool, call.name⟩ ∉ session.decisions

/-- The reason why a call may run. -/
def Justified (manager : McpClientManager) (store : TrustStore) (session : SessionTrust)
    (agentId : String) (decision : Option CommandApprovalDecision) (call : ToolCall) : Prop :=
  NotSubject manager call ∨ TrustedAsItsKind manager store session agentId call ∨
    MustAsk manager store session agentId call ∧
      (decision = some .approve ∨ decision = some .trust)

/-! ## The collected entries -/

theorem isCommandTrusted_eq_true_iff {command : String} :
    store.isCommandTrusted agentId command = some true ↔
      store.timesOut agentId command = false ∧ exactRow agentId command ∈ store.rows := by
  simp only [TrustStore.isCommandTrusted]
  cases store.timesOut agentId command with
  | true => simp
  | false => simp [List.countP_pos_iff]

/-- A tool that is not exempt by its classification needs an approval. -/
theorem needsApproval_of_not_notSubject (tool : ¬ Sandboxed manager call)
    (subject : ¬ NotSubject manager call) : needsApproval manager call.name = true := by
  simp only [NotSubject, tool, not_false_eq_true, true_and, not_or, not_and,
    Bool.not_eq_false] at subject
  rcases subject with ⟨notNative, notSafe, destructive⟩
  simp only [needsApproval]
  split
  · rename_i safe
    exact absurd safe notSafe
  · rfl
  · rename_i unrated
    simp only [notNative, Bool.false_eq_true, if_false]
    exact destructive unrated

theorem callId_of_untrustedCommand {entry : ApprovalEntry}
    (added : untrustedCommand manager store session agentId call = some entry) :
    entry.callId = call.id := by
  simp only [untrustedCommand] at added
  split at added
  · split at added
    · cases added
      rfl
    · cases added
  · split at added
    · cases added
    · split at added
      · cases added
        rfl
      · cases added

/-- The loop adds an entry for exactly the calls that must be asked about. -/
theorem mustAsk_iff :
    (untrustedCommand manager store session agentId call).isSome ↔
      MustAsk manager store session agentId call := by
  simp only [untrustedCommand, MustAsk]
  by_cases sandboxed : Sandboxed manager call
  · simp only [sandboxed, not_true, if_false, if_true, ToolCall.command]
    cases call.arguments.getStr "command" with
    | none => simp
    | some command =>
        have trusted : (store.isCommandTrusted agentId command).getD false = true ↔
            store.isCommandTrusted agentId command = some true := by
          cases store.isCommandTrusted agentId command <;> simp
        simp only [trusted, Option.some.injEq, exists_eq_left']
        split
        · rename_i ask
          simp [ask]
        · rename_i known
          simp [known]
  · simp only [sandboxed, not_false_eq_true, if_true, if_false]
    split
    · rename_i ask
      simp [ask]
    · rename_i known
      simp [known]

theorem foldl_collectCall (calls : List ToolCall) (collected : List ApprovalEntry × Severity) :
    (calls.foldl (collectCall manager store session agentId) collected).1 =
      collected.1 ++ calls.filterMap (untrustedCommand manager store session agentId) := by
  induction calls generalizing collected with
  | nil => simp
  | cons call calls ih =>
      rw [List.foldl_cons, ih, collectCall]
      cases added : untrustedCommand manager store session agentId call <;> simp [added]

/-- An id is asked about exactly when one of its calls must be. -/
theorem mem_extractDeniedIds_iff {calls : List ToolCall} {id : String} :
    id ∈ extractDeniedIds
        (collectUntrustedCommands manager store session agentId calls).1 ↔
      ∃ call ∈ calls, MustAsk manager store session agentId call ∧ call.id = id := by
  rw [extractDeniedIds, collectUntrustedCommands, foldl_collectCall, List.nil_append, List.mem_map]
  constructor
  · rintro ⟨entry, mem, rfl⟩
    rcases List.mem_filterMap.mp mem with ⟨call, callMem, added⟩
    have asked := callId_of_untrustedCommand added
    exact ⟨call, callMem, mustAsk_iff.mp (Option.isSome_of_eq_some added), asked.symm⟩
  · rintro ⟨call, callMem, ask, rfl⟩
    rcases Option.isSome_iff_exists.mp (mustAsk_iff.mpr ask) with ⟨entry, added⟩
    exact ⟨entry, List.mem_filterMap.mpr ⟨call, callMem, added⟩, callId_of_untrustedCommand added⟩

/-- The denied set: what was asked about, when the answer was no or never came. -/
theorem mem_denied_iff {calls : List ToolCall} {decision : Option CommandApprovalDecision}
    {id : String} :
    id ∈ (runApprovalGate manager store session agentId calls false false decision).denied ↔
      (decision = some .deny ∨ decision = none) ∧
        ∃ call ∈ calls, MustAsk manager store session agentId call ∧ call.id = id := by
  rw [← mem_extractDeniedIds_iff]
  simp only [runApprovalGate, Bool.false_eq_true, if_false]
  split
  · rename_i nothing
    simp [extractDeniedIds, nothing]
  · rcases decision with _ | (_ | _ | _) <;> simp [processApprovalDecision]

/-! ## The four kinds of call -/

/-- Every call is exempt, trusted as its kind, asked about, or escapes. -/
theorem classification (call : ToolCall) :
    NotSubject manager call ∨ TrustedAsItsKind manager store session agentId call ∨
      MustAsk manager store session agentId call ∨
      Escapes manager store session agentId call := by
  by_cases sandboxed : Sandboxed manager call
  · simp only [TrustedAsItsKind, MustAsk, Escapes, sandboxed, if_true]
    cases call.command with
    | none => simp
    | some command =>
        by_cases stored : exactRow agentId command ∈ store.rows
        · exact .inr (.inl ⟨command, rfl, .inl stored⟩)
        · by_cases named : (agentId, commandName command) ∈ session.names
          · by_cases decided : ⟨agentId, .shell, commandName command⟩ ∈ session.decisions
            · exact .inr (.inl ⟨command, rfl, .inr decided⟩)
            · exact .inr (.inr (.inr ⟨stored, named, decided⟩))
          · have untrusted : store.isCommandTrusted agentId command ≠ some true := by
              intro trusted
              exact stored (isCommandTrusted_eq_true_iff.mp trusted).2
            exact .inr (.inr (.inl ⟨command, rfl, untrusted, named⟩))
  · by_cases exempt : NotSubject manager call
    · exact .inl exempt
    · simp only [TrustedAsItsKind, MustAsk, Escapes, sandboxed, if_false]
      by_cases named : (agentId, call.name) ∈ session.names
      · by_cases decided : ⟨agentId, .tool, call.name⟩ ∈ session.decisions
        · exact .inr (.inl decided)
        · exact .inr (.inr (.inr ⟨exempt, named, decided⟩))
      · exact .inr (.inr (.inl ⟨needsApproval_of_not_notSubject sandboxed exempt, named⟩))

/-- A call that escapes has no reason to run. -/
theorem not_justified_of_escapes {decision : Option CommandApprovalDecision}
    (escapes : Escapes manager store session agentId call) :
    ¬ Justified manager store session agentId decision call := by
  by_cases sandboxed : Sandboxed manager call
  · simp only [Escapes, sandboxed, if_true] at escapes
    rintro (exempt | trusted | ⟨ask, _⟩)
    · exact exempt.1 sandboxed
    · simp only [TrustedAsItsKind, sandboxed, if_true] at trusted
      rcases trusted with ⟨command, commandEq, trusted⟩
      simp only [commandEq] at escapes
      rcases trusted with stored | decided
      · exact escapes.1 stored
      · exact escapes.2.2 decided
    · simp only [MustAsk, sandboxed, if_true] at ask
      rcases ask with ⟨command, commandEq, _, unnamed⟩
      simp only [commandEq] at escapes
      exact unnamed escapes.2.1
  · simp only [Escapes, sandboxed, if_false] at escapes
    rintro (exempt | trusted | ⟨ask, _⟩)
    · exact escapes.1 exempt
    · simp only [TrustedAsItsKind, sandboxed, if_false] at trusted
      exact escapes.2.2 trusted
    · simp only [MustAsk, sandboxed, if_false] at ask
      exact ask.2 escapes.2.1

/-! ## Soundness -/

/-- The gate is sound on a batch when every call that it does not deny has a
reason to run. -/
def SoundOn (manager : McpClientManager) (store : TrustStore) (session : SessionTrust)
    (agentId : String) (calls : List ToolCall) (decision : Option CommandApprovalDecision) : Prop :=
  ∀ call ∈ calls,
    call.id ∉ (runApprovalGate manager store session agentId calls false false decision).denied →
      Justified manager store session agentId decision call

/-- The gate is sound on a batch exactly when every escaping call of the batch
shares its id with a call that was asked about and not allowed. -/
theorem soundOn_iff (manager : McpClientManager) (store : TrustStore) (session : SessionTrust)
    (agentId : String) (calls : List ToolCall) (decision : Option CommandApprovalDecision) :
    SoundOn manager store session agentId calls decision ↔
      ∀ call ∈ calls, Escapes manager store session agentId call →
        (decision = some .deny ∨ decision = none) ∧
          ∃ other ∈ calls, MustAsk manager store session agentId other ∧ other.id = call.id := by
  constructor
  · intro sound call mem escapes
    rw [← mem_denied_iff]
    by_cases denied : call.id ∈ (runApprovalGate manager store session agentId calls false false
        decision).denied
    · exact denied
    · exact absurd (sound call mem denied) (not_justified_of_escapes escapes)
  · intro escaping call mem undenied
    rcases classification call with exempt | trusted | ask | escapes
    · exact .inl exempt
    · exact .inr (.inl trusted)
    · right
      right
      constructor
      · exact ask
      · rw [mem_denied_iff, not_and] at undenied
        rcases decision with _ | (_ | _ | _)
        · exact absurd ⟨call, mem, ask, rfl⟩ (undenied (.inr rfl))
        · exact .inl rfl
        · exact .inr rfl
        · exact absurd ⟨call, mem, ask, rfl⟩ (undenied (.inl rfl))
    · exact absurd (mem_denied_iff.mpr (escaping call mem escapes)) undenied

/-- The gate is sound on every batch. -/
def GateSound : Prop :=
  ∀ (manager : McpClientManager) (store : TrustStore) (session : SessionTrust) (agentId : String)
    (calls : List ToolCall) (decision : Option CommandApprovalDecision),
    SoundOn manager store session agentId calls decision

/-- A kernel without servers. -/
def noServers : McpClientManager where
  toolIndex := []
  servers := []

/-- A database that answers and trusts nothing. -/
def noTrust : TrustStore where
  rows := []
  timesOut := fun _ _ => false

/-- A session in which the user has trusted the tool `git` for `agent.a`. -/
def gitToolTrusted : SessionTrust :=
  SessionTrust.empty.insertAll "agent.a" [⟨"c-1", "[destructive] git", "git", .error, .tool⟩]

/-- A shell command with that first word. -/
def gitPush : ToolCall where
  id := "c-2"
  name := "execute_command"
  arguments := .object [("command", .string "git push --force")]

theorem escapes_gitPush : Escapes noServers noTrust gitToolTrusted "agent.a" gitPush := by
  have sandboxed : Sandboxed noServers gitPush := by decide
  have commandEq : gitPush.command = some "git push --force" := by decide
  simp only [Escapes, sandboxed, if_true, commandEq]
  decide

theorem not_gateSound : ¬ GateSound := by
  intro sound
  have onBatch := sound noServers noTrust gitToolTrusted "agent.a" [gitPush] (some .approve)
  rw [soundOn_iff] at onBatch
  rcases (onBatch gitPush List.mem_cons_self escapes_gitPush).1 with denied | dropped
  · cases denied
  · cases dropped

end ClotoCore.Approval
