import ClotoCore.Approval.Soundness
import ClotoCore.Transition.Run

/-!
# What an approval stores and what is looked up

An approval stores the text that the gate showed for each call.  For a shell command this
is the command that is looked up the next time.  For any other tool it is a label, which
is never looked up for the tool, and which a shell command may spell.
-/

namespace ClotoCore.Approval

open ClotoCore.Encoding ClotoCore.Transition

/-- A batch of calls that the gate is run on. -/
structure Batch where
  manager : McpClientManager
  agentId : String
  calls : List ToolCall
  yoloMode : Bool
  cronSource : Bool
  decision : Option CommandApprovalDecision

/-- What the gate keeps from batch to batch. -/
structure Trusted where
  store : TrustStore
  session : SessionTrust

/-- Run the gate on one batch. -/
def Trusted.after (trusted : Trusted) (batch : Batch) : Trusted :=
  let outcome := runApprovalGate batch.manager trusted.store trusted.session batch.agentId
    batch.calls batch.yoloMode batch.cronSource batch.decision
  ⟨outcome.store, outcome.session⟩

/-- The gate is run on one batch after the other. -/
def gateStep : Action Trusted Batch :=
  fun trusted batch => some (trusted.after batch)

/-- What is kept after the user approves a batch exactly. -/
def Trusted.approved (trusted : Trusted) (manager : McpClientManager) (agentId : String)
    (calls : List ToolCall) : Trusted :=
  trusted.after ⟨manager, agentId, calls, false, false, some .approve⟩

/-- A call is one of those that another was approved for: of its kind, with its command or
its tool. -/
def SameGrant (manager : McpClientManager) (call later : ToolCall) : Prop :=
  if Sandboxed manager call then Sandboxed manager later ∧ later.command = call.command
  else ¬ Sandboxed manager later ∧ later.name = call.name

/-- What the approval of a batch stores is what is looked up for its calls. -/
structure PersistsExactly (manager : McpClientManager) (trusted : Trusted) (agentId : String)
    (calls : List ToolCall) : Prop where
  /-- A call that was approved is not asked about again, whatever batches come between. -/
  notAskedAgain : ∀ call ∈ calls, MustAsk manager trusted.store trusted.session agentId call →
    ∀ (batches : List Batch) (target : Trusted),
      run gateStep (trusted.approved manager agentId calls) batches = some target →
        ∀ (kernel : McpClientManager) (later : ToolCall),
          later.name = call.name → later.arguments = call.arguments →
            ¬ MustAsk kernel target.store target.session agentId later
  /-- A call that is exempt from now on is of the agent and was approved for it. -/
  nothingElse : ∀ (other : String) (later : ToolCall),
    MustAsk manager trusted.store trusted.session other later →
    ¬ MustAsk manager (trusted.approved manager agentId calls).store
      (trusted.approved manager agentId calls).session other later →
    other = agentId ∧ ∃ call ∈ calls,
      MustAsk manager trusted.store trusted.session agentId call ∧ SameGrant manager call later

variable {manager kernel : McpClientManager} {store : TrustStore} {session : SessionTrust}
  {trusted target : Trusted} {agentId command : String} {call later : ToolCall}

/-! ## The store -/

theorem mem_addTrustedCommand_iff {row : TrustedCommand} :
    row ∈ (store.addTrustedCommand agentId command).rows ↔
      row ∈ store.rows ∨
        store.timesOut agentId command = false ∧ row = exactRow agentId command := by
  rw [TrustStore.addTrustedCommand]
  cases timesOut : store.timesOut agentId command with
  | true => simp
  | false =>
      by_cases there : exactRow agentId command ∈ store.rows
      · rw [if_pos (.inr there)]
        constructor
        · exact .inl
        · rintro (mem | ⟨-, rfl⟩)
          · exact mem
          · exact there
      · rw [if_neg (by simp [there])]
        simp

theorem timesOut_addTrustedCommand :
    (store.addTrustedCommand agentId command).timesOut = store.timesOut := by
  rw [TrustStore.addTrustedCommand]
  split
  · rfl
  · rfl

/-- Approving entries stores the text of each, where the database answers. -/
theorem mem_foldl_addTrustedCommand_iff {entries : List ApprovalEntry} {row : TrustedCommand} :
    row ∈ (entries.foldl (fun store entry => store.addTrustedCommand agentId entry.command)
        store).rows ↔
      row ∈ store.rows ∨ ∃ entry ∈ entries,
        store.timesOut agentId entry.command = false ∧ row = exactRow agentId entry.command := by
  induction entries generalizing store with
  | nil => simp
  | cons entry rest ih =>
      rw [List.foldl_cons, ih, mem_addTrustedCommand_iff, timesOut_addTrustedCommand,
        List.exists_mem_cons_iff, or_assoc]

theorem timesOut_foldl_addTrustedCommand {entries : List ApprovalEntry} :
    (entries.foldl (fun store entry => store.addTrustedCommand agentId entry.command)
      store).timesOut = store.timesOut := by
  induction entries generalizing store with
  | nil => rfl
  | cons entry rest ih => rw [List.foldl_cons, ih, timesOut_addTrustedCommand]

/-! ## Nothing is forgotten -/

/-- What is trusted stays trusted. -/
structure Trusted.Kept (trusted target : Trusted) : Prop where
  rows : trusted.store.rows ⊆ target.store.rows
  timesOut : target.store.timesOut = trusted.store.timesOut
  names : trusted.session.names ⊆ target.session.names

theorem Trusted.Kept.refl (trusted : Trusted) : trusted.Kept trusted :=
  ⟨List.Subset.refl _, rfl, List.Subset.refl _⟩

theorem Trusted.Kept.trans {middle : Trusted} (first : trusted.Kept middle)
    (second : middle.Kept target) : trusted.Kept target :=
  ⟨List.Subset.trans first.rows second.rows, second.timesOut.trans first.timesOut,
    List.Subset.trans first.names second.names⟩

theorem Trusted.kept_after (trusted : Trusted) (batch : Batch) :
    trusted.Kept (trusted.after batch) := by
  simp only [Trusted.after, runApprovalGate]
  split
  · exact Trusted.Kept.refl trusted
  · split
    · exact Trusted.Kept.refl trusted
    · split
      · exact Trusted.Kept.refl trusted
      · rcases batch.decision with _ | (_ | _ | _)
        · exact Trusted.Kept.refl trusted
        · constructor
          · intro row mem
            exact mem_foldl_addTrustedCommand_iff.mpr (.inl mem)
          · exact timesOut_foldl_addTrustedCommand
          · exact List.Subset.refl _
        · constructor
          · exact List.Subset.refl _
          · rfl
          · exact List.subset_append_left _ _
        · exact Trusted.Kept.refl trusted

/-- What is trusted stays trusted over every run of the gate. -/
theorem Trusted.kept_run {batches : List Batch} (ran : run gateStep trusted batches = some target) :
    trusted.Kept target := by
  refine run_invariant trusted.Kept ?_ (Trusted.Kept.refl trusted) ran
  intro state batch next kept stepEq
  cases stepEq
  exact kept.trans (state.kept_after batch)

/-- A call that needs no question needs none when more is trusted. -/
theorem Trusted.Kept.not_mustAsk (kept : trusted.Kept target) {command : String}
    (sandboxed : Sandboxed kernel later) (commandEq : later.command = some command)
    (stored : exactRow agentId command ∈ trusted.store.rows)
    (answers : trusted.store.timesOut agentId command = false) :
    ¬ MustAsk kernel target.store target.session agentId later := by
  intro ask
  rw [MustAsk, if_pos sandboxed] at ask
  rcases ask with ⟨same, sameEq, untrusted, -⟩
  cases commandEq.symm.trans sameEq
  apply untrusted
  rw [isCommandTrusted_eq_true_iff, kept.timesOut]
  exact ⟨answers, kept.rows stored⟩

/-! ## An approval -/

theorem Trusted.session_approved (trusted : Trusted) (manager : McpClientManager) (agentId : String)
    (calls : List ToolCall) :
    (trusted.approved manager agentId calls).session = trusted.session := by
  simp only [Trusted.approved, Trusted.after, runApprovalGate, Bool.false_eq_true, if_false]
  split
  · rfl
  · rfl

theorem Trusted.timesOut_approved (trusted : Trusted) (manager : McpClientManager)
    (agentId : String) (calls : List ToolCall) :
    (trusted.approved manager agentId calls).store.timesOut = trusted.store.timesOut :=
  (trusted.kept_after ⟨manager, agentId, calls, false, false, some .approve⟩).timesOut

/-- An approval stores the texts of the entries that were asked about. -/
theorem Trusted.mem_approved_iff {calls : List ToolCall} {row : TrustedCommand} :
    row ∈ (trusted.approved manager agentId calls).store.rows ↔
      row ∈ trusted.store.rows ∨
        ∃ call ∈ calls, ∃ entry,
          untrustedCommand manager trusted.store trusted.session agentId call = some entry ∧
            trusted.store.timesOut agentId entry.command = false ∧
              row = exactRow agentId entry.command := by
  have collected : (collectUntrustedCommands manager trusted.store trusted.session agentId calls).1 =
      calls.filterMap (untrustedCommand manager trusted.store trusted.session agentId) := by
    rw [collectUntrustedCommands, foldl_collectCall, List.nil_append]
  have added : (∃ entry ∈ (collectUntrustedCommands manager trusted.store trusted.session agentId
        calls).1, trusted.store.timesOut agentId entry.command = false ∧
          row = exactRow agentId entry.command) ↔
      ∃ call ∈ calls, ∃ entry,
        untrustedCommand manager trusted.store trusted.session agentId call = some entry ∧
          trusted.store.timesOut agentId entry.command = false ∧
            row = exactRow agentId entry.command := by
    rw [collected]
    constructor
    · rintro ⟨entry, mem, rest⟩
      rcases List.mem_filterMap.mp mem with ⟨call, callMem, asked⟩
      exact ⟨call, callMem, entry, asked, rest⟩
    · rintro ⟨call, callMem, entry, asked, rest⟩
      exact ⟨entry, List.mem_filterMap.mpr ⟨call, callMem, asked⟩, rest⟩
  rw [← added]
  simp only [Trusted.approved, Trusted.after, runApprovalGate, Bool.false_eq_true, if_false]
  split
  · next nothing => simp [nothing]
  · exact mem_foldl_addTrustedCommand_iff

/-- What is shown for a shell command that must be asked about is the command. -/
theorem exists_entry_of_shell (sandboxed : Sandboxed manager call)
    (ask : MustAsk manager store session agentId call) (commandEq : call.command = some command) :
    ∃ entry, untrustedCommand manager store session agentId call = some entry ∧
      entry.command = command := by
  rcases Option.isSome_iff_exists.mp (mustAsk_iff.mpr ask) with ⟨entry, asked⟩
  refine ⟨entry, asked, ?_⟩
  rw [ToolCall.command] at commandEq
  simp only [untrustedCommand, sandboxed, not_true, if_false, commandEq] at asked
  split at asked
  · cases asked
    rfl
  · cases asked

/-- The approval of a batch persists exactly if and only if everything that it was asked
about are shell commands for which the database answers. -/
theorem persistsExactly_iff (manager : McpClientManager) (trusted : Trusted) (agentId : String)
    (calls : List ToolCall) :
    PersistsExactly manager trusted agentId calls ↔
      ∀ call ∈ calls, MustAsk manager trusted.store trusted.session agentId call →
        ∃ command, Sandboxed manager call ∧ call.command = some command ∧
          trusted.store.timesOut agentId command = false := by
  constructor
  · intro persists call mem ask
    have quiet := persists.notAskedAgain call mem ask [] _ rfl manager call rfl rfl
    rw [Trusted.session_approved] at quiet
    by_cases sandboxed : Sandboxed manager call
    · rw [MustAsk, if_pos sandboxed] at ask quiet
      rcases ask with ⟨command, commandEq, -, unnamed⟩
      refine ⟨command, sandboxed, commandEq, ?_⟩
      rw [Bool.eq_false_iff]
      intro silent
      apply quiet
      refine ⟨command, commandEq, ?_, unnamed⟩
      rw [Ne, isCommandTrusted_eq_true_iff, Trusted.timesOut_approved, silent]
      rintro ⟨answers, -⟩
      cases answers
    · -- The approval leaves the names of the session as they are.
      rw [MustAsk, if_neg sandboxed] at ask quiet
      exact absurd ask quiet
  · intro shells
    constructor
    · intro call mem ask batches target ran kernel later sameName sameArguments
      rcases shells call mem ask with ⟨command, sandboxed, commandEq, answers⟩
      rcases exists_entry_of_shell sandboxed ask commandEq with ⟨entry, asked, rfl⟩
      have kept := Trusted.kept_run ran
      have laterSandboxed : Sandboxed kernel later := by
        rw [Sandboxed, sameName]
        exact sandboxed
      have laterCommand : later.command = some entry.command := by
        rw [ToolCall.command, sameArguments]
        exact commandEq
      apply kept.not_mustAsk laterSandboxed laterCommand
      · exact Trusted.mem_approved_iff.mpr (.inr ⟨call, mem, entry, asked, answers, rfl⟩)
      · rw [Trusted.timesOut_approved]
        exact answers
    · intro other later ask quiet
      rw [Trusted.session_approved] at quiet
      by_cases sandboxed : Sandboxed manager later
      · rw [MustAsk, if_pos sandboxed] at ask quiet
        rcases ask with ⟨command, commandEq, untrusted, unnamed⟩
        have isTrusted : (trusted.approved manager agentId calls).store.isCommandTrusted other command
            = some true := by
          by_contra still
          exact quiet ⟨command, commandEq, still, unnamed⟩
        rw [isCommandTrusted_eq_true_iff, Trusted.timesOut_approved] at isTrusted
        rcases Trusted.mem_approved_iff.mp isTrusted.2 with before | ⟨call, mem, entry,
          asked, -, same⟩
        · exact absurd (isCommandTrusted_eq_true_iff.mpr ⟨isTrusted.1, before⟩) untrusted
        · cases same
          have asks := mustAsk_iff.mp (Option.isSome_of_eq_some asked)
          rcases shells call mem asks with ⟨own, callSandboxed, ownEq, -⟩
          rcases exists_entry_of_shell callSandboxed asks ownEq with ⟨shown, shownEq, rfl⟩
          cases asked.symm.trans shownEq
          refine ⟨rfl, call, mem, asks, ?_⟩
          rw [SameGrant, if_pos callSandboxed]
          exact ⟨sandboxed, commandEq.trans ownEq.symm⟩
      · rw [MustAsk, if_neg sandboxed] at ask quiet
        exact absurd ask quiet

/-- A tool that no server describes, and that therefore counts as destructive. -/
def wipeDisk : ToolCall where
  id := "c-3"
  name := "wipe_disk"
  arguments := .object []

/-- A tool that is not run in a shell is asked about again. -/
theorem approved_tool_asked_again :
    ¬ ∀ manager trusted agentId calls, PersistsExactly manager trusted agentId calls := by
  intro always
  have persists := always noServers ⟨noTrust, .empty⟩ "agent.a" [wipeDisk]
  have tool : ¬ Sandboxed noServers wipeDisk := by decide
  have ask : MustAsk noServers noTrust .empty "agent.a" wipeDisk := by
    rw [MustAsk, if_neg tool]
    decide
  apply persists.notAskedAgain wipeDisk List.mem_cons_self ask [] _ rfl noServers wipeDisk rfl rfl
  rw [Trusted.session_approved, MustAsk, if_neg tool]
  decide

end ClotoCore.Approval
