import ClotoCore.Approval.Gate
import ClotoCore.Sequence.Answered
import ClotoCore.Sequence.Numbered
import ClotoCore.Transition.Run

/-!
# The tool history of the agentic loop

A loop takes up the history that the session holds, asks its engine, and appends to the
history the calls of each reply with their results.  A rejection can break off the work
on a reply, and the history is cut at its front when it gets long.  What is left at the
end is recorded for the next loop.
-/

namespace ClotoCore.Turns.ToolHistory

open ClotoCore.Approval ClotoCore.Sequence ClotoCore.Transition

/-- `MAX_TOOL_HISTORY` -/
def maxToolHistory : Nat := 100

/-- `RejectionCode` -/
inductive RejectionCode where
  | yoloRequired
  | accessDenied
  | sealUnsigned
  | riskUnapproved
  | codeUnsafe
  | delegationCycle
  | delegationDepth
  | selfDelegation
  | notDynamicallyRegistered
  | unknown
  deriving DecidableEq

/-- `ToolRejection`, without the details, which only events carry. -/
structure ToolRejection where
  code : RejectionCode
  reason : String
  remediationHint : Option String
  retryable : Bool

/-- How the execution of a tool ends, with the text of the value or of the error. -/
inductive ToolOutcome where
  | value (text : String)
  | rejected (rejection : ToolRejection)
  | error (text : String)
  | timedOut

/-- A message of the tool history. -/
inductive Message where
  | assistant (content : Option String) (calls : List ToolCall)
  | tool (toolCallId content : String)

/-- The ids that an assistant message calls, or the one that a tool message answers. -/
def Message.role : Message → List String ⊕ String
  | .assistant _ calls => .inl (calls.map ToolCall.id)
  | .tool toolCallId _ => .inr toolCallId

/-- `compose_rejection_text` -/
def composeRejectionText (rejection : ToolRejection) : String :=
  s!"Error: {rejection.reason}\nREMEDIATION: " ++
    rejection.remediationHint.getD "This rejection cannot be resolved by operator action." ++
    "\nDo not retry this tool call; report the situation to the user."

/-- `compose_rejection_final_response` -/
def composeRejectionFinalResponse (rejections : List (String × ToolRejection)) : String :=
  let tools := ", ".intercalate (((rejections.map Prod.fst).dedup).mergeSort fun a b => a ≤ b)
  match rejections.getLast? with
  | none => ""
  | some (_, last) =>
      match last.code with
      | .yoloRequired =>
          s!"The requested operation (tool(s): {tools}) was rejected because privileged (YOLO) " ++
            "mode is currently disabled. Please enable it in Settings → Security to allow these " ++
            "operations."
      | .selfDelegation =>
          "Inter-agent delegation was aborted: the delegation target is the same as the caller. " ++
            "This is a logical constraint and cannot be resolved."
      | .delegationDepth =>
          "Inter-agent delegation was aborted: the delegation chain exceeded the maximum depth. " ++
            "This is a logical constraint — the agent logic needs to be redesigned to avoid " ++
            "deep delegation."
      | .delegationCycle =>
          "Inter-agent delegation was aborted: the requested chain would form a cycle. This is " ++
            "a logical constraint and cannot be resolved without changing the delegation target."
      | .accessDenied =>
          s!"Access to tool(s) {tools} was denied by the access control policy. Please review " ++
            "the agent's permissions in the Agent Workspace."
      | .sealUnsigned =>
          s!"Tool(s) {tools} could not be executed because the providing MCP server is not " ++
            "signed at the required trust level. Please sign the server or lower its trust level."
      | .codeUnsafe =>
          "Generated MCP server code failed safety validation. Please review the violations " ++
            "reported in the rejection details."
      | .riskUnapproved =>
          s!"Tool(s) {tools} are classified as dangerous and have not been approved for " ++
            "autonomous execution. Please approve them in the dashboard."
      | .notDynamicallyRegistered =>
          "The server was not removed: it was installed by the operator, not registered at " ++
            "runtime, and only the operator can uninstall it."
      | .unknown =>
          s!"Tool(s) {tools} were rejected by the MCP server. Reason: {last.reason}"

/-- The result of a tool that was executed. -/
def ToolOutcome.content : ToolOutcome → String
  | .value text => text
  | .rejected rejection => composeRejectionText rejection
  | .error text => s!"Error: {text}"
  | .timedOut => "Error: tool execution timed out"

/-- The rejection, if the call was rejected. -/
def ToolOutcome.rejection? : ToolOutcome → Option ToolRejection
  | .rejected rejection => some rejection
  | _ => none

/-- What a loop knows before it starts: the tools of the agent and the most iterations. -/
structure Setting where
  toolNames : List String
  maxIterations : Nat

/-- `max_iterations`, with the override of a job and the default of the kernel. -/
def maxIterations (override : Option UInt8) (maxAgenticIterations : UInt8) : Nat :=
  min (override.getD maxAgenticIterations).toNat 64

/-- How a loop has ended: with the answer of its engine, with one that the engine gives
without tools, with a composed answer, with an error, or from outside. -/
inductive Ending where
  | final (content : String)
  | maxIterations
  | rejected (content : String)
  | failed
  | dropped

/-- Where a loop is. -/
inductive Stage where
  | thinking
  | ended (ending : Ending)

/-- Whether the loop goes on. -/
def Stage.isThinking : Stage → Bool
  | .thinking => true
  | .ended _ => false

/-- A loop of a turn. -/
structure Loop where
  setting : Setting
  iteration : Nat
  toolHistory : List Message
  rejections : List (String × ToolRejection)
  stage : Stage

/-- A loop that takes up a history. -/
def Loop.init (setting : Setting) (history : List Message) : Loop where
  setting := setting
  iteration := 0
  toolHistory := history
  rejections := []
  stage := .thinking

/-- What an engine answers.  Each call comes with how its execution would end, and the
approval gate has denied some ids. -/
inductive Reply where
  | final (content : String)
  | toolCalls (assistantContent : Option String) (calls : List (ToolCall × ToolOutcome))
      (deniedCallIds : List String)
  | error

/-- The history that a session holds, if there is the session, and the loops that run
in it. -/
structure State where
  toolHistory : Option (List Message)
  loops : List Loop

/-- What may happen to the history. -/
inductive Label where
  | appendMessage
  | clear
  | evict
  | start (toolNames : List String) (override : Option UInt8) (maxAgenticIterations : UInt8)
  | reply (loop : Nat) (reply : Reply)
  | drop (loop : Nat)

/-- The result of a call. -/
def result (setting : Setting) (denied : List String) (call : ToolCall) (outcome : ToolOutcome) :
    String :=
  if denied.contains call.id then
    "Error: command '" ++ (call.arguments.getStr "command").getD "?" ++
      "' was denied by user"
  else if setting.toolNames.contains call.name then outcome.content
  else "Error: tool '" ++ call.name ++ "' not found"

/-- The rejection of a call that is executed. -/
def rejectionOf (setting : Setting) (denied : List String) (call : ToolCall)
    (outcome : ToolOutcome) : Option ToolRejection :=
  if denied.contains call.id then none
  else if setting.toolNames.contains call.name then outcome.rejection?
  else none

/-- A rejection that is not retryable, or of the same code as the last one. -/
def breaks (rejections : List (String × ToolRejection)) (rejection : ToolRejection) : Bool :=
  !rejection.retryable ||
    rejections.getLast?.any fun previous => previous.2.code == rejection.code

/-- What the work on a reply leaves. -/
structure Round where
  messages : List Message
  rejections : List (String × ToolRejection)
  breakOnRejection : Bool

/-- The loop through the calls of a reply. -/
def executeCalls (setting : Setting) (denied : List String) :
    List (String × ToolRejection) → List (ToolCall × ToolOutcome) → Round
  | rejections, [] => ⟨[], rejections, false⟩
  | rejections, (call, outcome) :: rest =>
      let message := Message.tool call.id (result setting denied call outcome)
      match rejectionOf setting denied call outcome with
      | none =>
          let round := executeCalls setting denied rejections rest
          { round with messages := message :: round.messages }
      | some rejection =>
          let after := rejections ++ [(call.name, rejection)]
          if breaks rejections rejection then ⟨[message], after, true⟩
          else
            let round := executeCalls setting denied after rest
            { round with messages := message :: round.messages }

/-- Cut the front of a history that has got too long. -/
def trim (history : List Message) : List Message :=
  history.drop (history.length - maxToolHistory)

namespace State

/-- A session that has not been used. -/
def init : State where
  toolHistory := none
  loops := []

/-- The loop is in a new state. -/
def setLoop (state : State) (n : Nat) (loop : Loop) : State :=
  { state with loops := state.loops.set n loop }

/-- `record_tool_history` -/
def recordToolHistory (state : State) (history : List Message) : State :=
  { state with toolHistory := state.toolHistory.map fun _ => history }

/-- A loop records its history and ends. -/
def finish (state : State) (n : Nat) (loop : Loop) (ending : Ending) : State :=
  (state.setLoop n { loop with stage := .ended ending }).recordToolHistory loop.toolHistory

end State

/-- The next iteration is more than there may be. -/
def Loop.spent (loop : Loop) : Bool :=
  loop.setting.maxIterations < min (loop.iteration + 1) 255

/-- The head of the loop: ask the engine with the history, or answer without it. -/
def State.iterate (state : State) (n : Nat) (loop : Loop) : State :=
  if loop.spent then state.finish n loop .maxIterations
  else
    state.setLoop n
      { loop with
        iteration := min (loop.iteration + 1) 255
        stage := .thinking }

/-- The loop after the work on a reply. -/
def Loop.work (loop : Loop) (assistantContent : Option String)
    (calls : List (ToolCall × ToolOutcome)) (denied : List String) : Loop :=
  let round := executeCalls loop.setting denied loop.rejections calls
  { loop with
    toolHistory := trim (loop.toolHistory ++
      .assistant assistantContent (calls.map Prod.fst) :: round.messages)
    rejections := round.rejections }

/-- The work on a reply is broken off. -/
def Loop.breaksOff (loop : Loop) (calls : List (ToolCall × ToolOutcome)) (denied : List String) :
    Bool :=
  (executeCalls loop.setting denied loop.rejections calls).breakOnRejection

/-- A step of a loop, or of what else keeps the history. -/
def step : Action State Label
  | state, .appendMessage => some { state with toolHistory := some (state.toolHistory.getD []) }
  | state, .clear => some { state with toolHistory := state.toolHistory.map fun _ => [] }
  | state, .evict => some { state with toolHistory := none }
  | state, .start toolNames override maxAgenticIterations =>
      let loop := Loop.init ⟨toolNames, maxIterations override maxAgenticIterations⟩
        (state.toolHistory.getD [])
      some ({ state with loops := state.loops ++ [loop] }.iterate state.loops.length loop)
  | state, .drop n =>
      match state.loops[n]? with
      | some loop => some (state.setLoop n { loop with stage := .ended .dropped })
      | none => none
  | state, .reply n reply =>
      match state.loops[n]? with
      | some loop =>
          if loop.stage.isThinking then
            match reply with
            | .final content => some (state.finish n loop (.final content))
            | .error => some (state.setLoop n { loop with stage := .ended .failed })
            | .toolCalls assistantContent calls denied =>
                let after := loop.work assistantContent calls denied
                if loop.breaksOff calls denied then
                  some
                    (state.finish n after
                      (.rejected (composeRejectionFinalResponse after.rejections)))
                else some (state.iterate n after)
          else none
      | none => none

/-- Each tool message answers a call of the last assistant message before it, and each
assistant message has one result for each of its calls. -/
abbrev WellFormed (history : List Message) : Prop :=
  Paired Message.role history

/-- In a history that is well formed each tool message answers a call of the last
assistant message before it. -/
theorem call_of_tool {before after : List Message} {id content : String}
    (wellFormed : WellFormed (before ++ .tool id content :: after)) :
    ∃ earlier assistantContent calls between,
      before = earlier ++ .assistant assistantContent calls :: between ∧
        (∀ message ∈ between, ¬ IsQuestion Message.role message) ∧
        id ∈ calls.map ToolCall.id := by
  rcases wellFormed.question_of_answer rfl with
    ⟨earlier, question, between, asked, split, asks, only, called⟩
  cases question with
  | assistant assistantContent calls =>
      cases asks
      exact ⟨earlier, assistantContent, calls, between, split, only, called⟩
  | tool => cases asks

/-- The history that the session holds, and those that the engines have been given. -/
structure AllWellFormed (state : State) : Prop where
  stored : ∀ history ∈ state.toolHistory, WellFormed history
  passed : ∀ loop ∈ state.loops, loop.stage.isThinking = true → WellFormed loop.toolHistory

/-- No call is left when a rejection breaks off the work on a reply. -/
def unbroken (setting : Setting) (denied : List String) :
    List (String × ToolRejection) → List (ToolCall × ToolOutcome) → Bool
  | _, [] => true
  | rejections, (call, outcome) :: rest =>
      match rejectionOf setting denied call outcome with
      | none => unbroken setting denied rejections rest
      | some rejection =>
          if breaks rejections rejection then rest.isEmpty
          else unbroken setting denied (rejections ++ [(call.name, rejection)]) rest

/-- With a reply and a result for each of its calls, the history is cut before an
assistant message. -/
def Loop.CutsBetween (loop : Loop) (calls : List (ToolCall × ToolOutcome)) : Prop :=
  let excess := loop.toolHistory.length + 1 + calls.length - maxToolHistory
  excess ≤ loop.toolHistory.length ∧
    ∀ message ∈ loop.toolHistory[excess]?, IsQuestion Message.role message

instance (loop : Loop) (calls : List (ToolCall × ToolOutcome)) :
    Decidable (loop.CutsBetween calls) :=
  inferInstanceAs (Decidable (_ ∧ _))

/-- A reply is worked on to its end and its history cut before an assistant message, or the
history is not used again: the loop ends and the session is gone. -/
def AnsweredWhole (state : State) : Label → Prop
  | .reply n (.toolCalls _ calls denied) =>
      ∀ loop ∈ state.loops[n]?, loop.stage.isThinking = true →
        (unbroken loop.setting denied loop.rejections calls = true ∧ loop.CutsBetween calls) ∨
          (state.toolHistory = none ∧ (loop.spent = true ∨ loop.breaksOff calls denied = true))
  | _ => True

instance (state : State) : ∀ label, Decidable (AnsweredWhole state label)
  | .reply n (.toolCalls _ calls denied) => inferInstanceAs <| Decidable <|
      ∀ loop ∈ state.loops[n]?, loop.stage.isThinking = true →
        (unbroken loop.setting denied loop.rejections calls = true ∧ loop.CutsBetween calls) ∨
          (state.toolHistory = none ∧ (loop.spent = true ∨ loop.breaksOff calls denied = true))
  | .reply _ (.final _) | .reply _ .error | .appendMessage | .clear | .evict | .start _ _ _
  | .drop _ => isTrue trivial

/-! ## The work on one reply -/

section Reply

variable {setting : Setting} {denied : List String} {rejections : List (String × ToolRejection)}
  {calls : List (ToolCall × ToolOutcome)} {loop : Loop}

theorem not_isQuestion_of_mem_messages :
    ∀ message ∈ (executeCalls setting denied rejections calls).messages,
      ¬ IsQuestion Message.role message := by
  induction calls generalizing rejections with
  | nil => simp [executeCalls]
  | cons call rest ih =>
      rw [executeCalls]
      split
      · simpa [IsQuestion, Message.role] using ih
      · split
        · simp [IsQuestion, Message.role]
        · simpa [IsQuestion, Message.role] using ih

/-- The results are those of all calls exactly if no call is left. -/
theorem perm_answers_iff :
    (answers Message.role (executeCalls setting denied rejections calls).messages).Perm
        ((calls.map Prod.fst).map ToolCall.id) ↔
      unbroken setting denied rejections calls = true := by
  induction calls generalizing rejections with
  | nil => simp [executeCalls, unbroken, answers]
  | cons call rest ih =>
      rw [executeCalls, unbroken]
      split
      · simp only [answers, Message.role, List.map_cons, List.perm_cons]
        exact ih
      · split
        · simp [answers, Message.role]
        · simp only [answers, Message.role, List.map_cons, List.perm_cons]
          exact ih

theorem length_messages_of_unbroken
    (whole : unbroken setting denied rejections calls = true) :
    (executeCalls setting denied rejections calls).messages.length = calls.length := by
  induction calls generalizing rejections with
  | nil => rfl
  | cons call rest ih =>
      rw [unbroken] at whole
      rw [executeCalls]
      split at whole
      · simp [ih whole]
      · split at whole
        · simp_all
        · simp_all

/-- A history that is well formed stays so exactly if the reply is worked on to its end
and the cut is before an assistant message. -/
theorem Loop.wellFormed_work_iff {assistantContent : Option String}
    (wellFormed : WellFormed loop.toolHistory) :
    WellFormed (loop.work assistantContent calls denied).toolHistory ↔
      unbroken loop.setting denied loop.rejections calls = true ∧ loop.CutsBetween calls := by
  simp only [Loop.work, trim]
  rw [WellFormed, paired_drop_iff wellFormed rfl not_isQuestion_of_mem_messages, perm_answers_iff]
  · apply and_congr_right
    intro whole
    have length : (loop.toolHistory ++ Message.assistant assistantContent (calls.map Prod.fst) ::
        (executeCalls loop.setting denied loop.rejections calls).messages).length
          = loop.toolHistory.length + 1 + calls.length := by
      rw [List.length_append, List.length_cons, length_messages_of_unbroken whole]
      omega
    rw [length]
    rfl
  · simp only [List.length_append, List.length_cons, maxToolHistory]
    omega

end Reply

/-! ## Each step -/

variable {state next : State} {label : Label} {n : Nat} {loop : Loop} {ending : Ending}

theorem AllWellFormed.setLoop_iff (all : AllWellFormed state) (there : n < state.loops.length) :
    AllWellFormed (state.setLoop n loop) ↔
      (loop.stage.isThinking = true → WellFormed loop.toolHistory) := by
  constructor
  · intro after
    exact after.passed loop (List.mem_of_getElem? (List.getElem?_set_self there))
  · intro wellFormed
    refine ⟨all.stored, ?_⟩
    intro other mem
    rcases List.mem_or_eq_of_mem_set mem with before | rfl
    · exact all.passed other before
    · exact wellFormed

theorem AllWellFormed.recordToolHistory_iff {history : List Message} (all : AllWellFormed state) :
    AllWellFormed (state.recordToolHistory history) ↔
      state.toolHistory = none ∨ WellFormed history := by
  constructor
  · intro after
    cases stored : state.toolHistory with
    | none => exact Or.inl rfl
    | some before =>
        right
        apply after.stored
        simp [State.recordToolHistory, stored]
  · intro allowed
    refine ⟨?_, all.passed⟩
    intro recorded mem
    rcases Option.map_eq_some_iff.mp mem with ⟨before, stored, rfl⟩
    rcases allowed with gone | wellFormed
    · cases gone.symm.trans stored
    · exact wellFormed

theorem AllWellFormed.finish_iff (all : AllWellFormed state) (there : n < state.loops.length) :
    AllWellFormed (state.finish n loop ending) ↔
      state.toolHistory = none ∨ WellFormed loop.toolHistory := by
  have ended : AllWellFormed (state.setLoop n { loop with stage := .ended ending }) := by
    rw [all.setLoop_iff there]
    intro thinking
    cases thinking
  exact ended.recordToolHistory_iff

theorem AllWellFormed.iterate_iff (all : AllWellFormed state) (there : n < state.loops.length) :
    AllWellFormed (state.iterate n loop) ↔
      (state.toolHistory = none ∧ loop.spent = true) ∨ WellFormed loop.toolHistory := by
  rw [State.iterate]
  split
  · next spent =>
    rw [all.finish_iff there]
    simp [spent]
  · next goesOn =>
    rw [all.setLoop_iff there]
    simp [goesOn, Stage.isThinking]

/-- What a session holds is left, cleared or gone. -/
theorem AllWellFormed.session {toolHistory : Option (List Message)} (all : AllWellFormed state)
    (held : ∀ history ∈ toolHistory, history = [] ∨ history ∈ state.toolHistory) :
    AllWellFormed { state with toolHistory := toolHistory } := by
  refine ⟨?_, all.passed⟩
  intro history mem
  rcases held history mem with rfl | before
  · exact paired_nil
  · exact all.stored history before

theorem AllWellFormed.start (all : AllWellFormed state) (setting : Setting) :
    AllWellFormed ({ state with
      loops := state.loops ++ [Loop.init setting (state.toolHistory.getD [])] }.iterate
        state.loops.length (Loop.init setting (state.toolHistory.getD []))) := by
  have taken : WellFormed (state.toolHistory.getD []) := by
    cases stored : state.toolHistory with
    | none => exact paired_nil
    | some history => exact all.stored history stored
  have started : AllWellFormed { state with
      loops := state.loops ++ [Loop.init setting (state.toolHistory.getD [])] } := by
    refine ⟨all.stored, ?_⟩
    intro loop mem
    rcases List.mem_append.mp mem with before | new
    · exact all.passed loop before
    · rw [List.mem_singleton.mp new]
      intro
      exact taken
  rw [started.iterate_iff (by simp)]
  exact Or.inr taken

/-- What one step does to the histories. -/
theorem AllWellFormed.step_iff (all : AllWellFormed state)
    (stepEq : step state label = some next) :
    AllWellFormed next ↔ AnsweredWhole state label := by
  cases label with
  | appendMessage =>
      rw [← Option.some.inj stepEq]
      simp only [AnsweredWhole, iff_true]
      apply all.session
      intro history mem
      cases stored : state.toolHistory with
      | none =>
          rw [stored] at mem
          exact Or.inl (Option.some.inj mem).symm
      | some before =>
          rw [stored] at mem
          exact Or.inr mem
  | clear =>
      rw [← Option.some.inj stepEq]
      simp only [AnsweredWhole, iff_true]
      apply all.session
      intro history mem
      rcases Option.map_eq_some_iff.mp mem with ⟨-, -, rfl⟩
      exact Or.inl rfl
  | evict =>
      rw [← Option.some.inj stepEq]
      simp only [AnsweredWhole, iff_true]
      apply all.session
      intro history mem
      cases mem
  | start toolNames override maxAgenticIterations =>
      rw [← Option.some.inj stepEq]
      simp only [AnsweredWhole, iff_true]
      exact all.start _
  | drop n =>
      simp only [step] at stepEq
      split at stepEq
      · next loop there =>
        rw [← Option.some.inj stepEq,
          all.setLoop_iff (List.getElem?_eq_some_iff.mp there).fst]
        simp [AnsweredWhole, Stage.isThinking]
      · cases stepEq
  | reply n reply =>
      simp only [step] at stepEq
      split at stepEq
      · next loop there =>
        have within := (List.getElem?_eq_some_iff.mp there).fst
        split at stepEq
        · next thinking =>
          have wellFormed := all.passed loop (List.mem_of_getElem? there) thinking
          cases reply with
          | final content =>
              rw [← Option.some.inj stepEq, all.finish_iff within]
              simp [AnsweredWhole, wellFormed]
          | error =>
              rw [← Option.some.inj stepEq, all.setLoop_iff within]
              simp [AnsweredWhole, Stage.isThinking]
          | toolCalls assistantContent calls denied =>
              have condition : AnsweredWhole state (.reply n (.toolCalls assistantContent calls
                  denied)) ↔ (unbroken loop.setting denied loop.rejections calls = true ∧
                    loop.CutsBetween calls) ∨ (state.toolHistory = none ∧
                      (loop.spent = true ∨ loop.breaksOff calls denied = true)) := by
                simp [AnsweredWhole, there, thinking]
              have spent : (loop.work assistantContent calls denied).spent = loop.spent := rfl
              rw [condition, ← loop.wellFormed_work_iff wellFormed]
              dsimp only at stepEq
              split at stepEq
              · next broken =>
                rw [← Option.some.inj stepEq, all.finish_iff within]
                simp only [broken, or_true, and_true]
                exact or_comm
              · next goesOn =>
                rw [← Option.some.inj stepEq, all.iterate_iff within, spent]
                simp only [goesOn, Bool.false_eq_true, or_false]
                exact or_comm
        · cases stepEq
      · cases stepEq

theorem allWellFormed_init : AllWellFormed .init where
  stored := by
    intro history stored
    cases stored
  passed := by
    intro loop mem
    cases mem

/-- In a run each history that is stored or given to an engine is well formed if and only
if each reply is worked on to its end and no cut falls between an assistant message and
its results. -/
theorem allWellFormed_throughout_iff {labels : List Label} {target : State}
    (ran : run step .init labels = some target) :
    (∀ count middle, run step .init (labels.take count) = some middle → AllWellFormed middle) ↔
      Along step AnsweredWhole .init labels := by
  apply throughout_iff_along _ allWellFormed_init ran
  intro state label next all stepEq
  exact all.step_iff stepEq

/-- A call of a tool that takes nothing. -/
def callOf (id name : String) : ToolCall where
  id := id
  name := name
  arguments := .object []

/-- Delegation to oneself is never allowed. -/
def selfDelegation : ToolRejection where
  code := .selfDelegation
  reason := "cannot delegate to self"
  remediationHint := none
  retryable := false

/-- One reply with two calls, of which the approval gate denies one, and an answer. -/
def twoCalls : List Label :=
  [.appendMessage, .start ["ask", "shell"] none 16,
    .reply 0 (.toolCalls none
      [(callOf "a" "ask", .value "done"), (callOf "b" "shell", .timedOut)] ["b"]),
    .reply 0 (.final "done")]

theorem allWellFormed_two_calls :
    ∃ target, run step .init twoCalls = some target ∧ AllWellFormed target := by
  have runs : (run step .init twoCalls).isSome = true := by
    decide +kernel
  have whole : Along step AnsweredWhole .init twoCalls := by
    decide +kernel
  rcases Option.isSome_iff_exists.mp runs with ⟨target, ran⟩
  exact ⟨target, ran, (allWellFormed_throughout_iff ran).mpr whole 4 target ran⟩

/-- The first of two calls is rejected, and the other one gets no result. -/
theorem rejection_leaves_call_unanswered :
    ¬ ∀ labels target, run step .init labels = some target → AllWellFormed target := by
  intro always
  have broken : (run step .init [.appendMessage, .start ["ask", "shell"] none 16,
      .reply 0 (.toolCalls none [(callOf "a" "ask", .rejected selfDelegation),
        (callOf "b" "shell", .value "done")] [])]).any
          (fun target => ∃ history ∈ target.toolHistory, ¬ WellFormed history) = true := by
    decide +kernel
  rcases (Option.any_eq_true ..).mp broken with ⟨target, ran, broken⟩
  rcases of_decide_eq_true broken with ⟨history, stored, broken⟩
  exact broken ((always _ target ran).stored history stored)

end ClotoCore.Turns.ToolHistory
