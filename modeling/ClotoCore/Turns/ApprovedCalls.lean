import ClotoCore.Mcp.Delegation
import ClotoCore.Turns.ToolHistory

/-!
# Who lets a requested call run

The loops of a turn and the loops of the agents that are asked within one execute what
their engines request.  The first have the approval gate look at each reply before they
take its calls one by one; the second have no gate.  A call of the first can start one of
the second, in the privileged mode only.
-/

namespace ClotoCore.Turns.ApprovedCalls

open ClotoCore.Approval ClotoCore.Json ClotoCore.Transition
open ClotoCore.Turns.ToolHistory (ToolOutcome ToolRejection breaks)

/-! ## Loops -/

/-- What all loops share: the privileged mode, the routes and tables that a call is decided
by, and what the gate reads. -/
structure Shared where
  yoloMode : Bool
  calls : Mcp.CallState
  manager : McpClientManager
  store : TrustStore
  session : SessionTrust

/-- Which of the two kinds a loop is.  One of a turn knows whether the turn comes from a
job, the tools that the agent is shown, the ones that plugins of its own provide, and how
often it may ask its engine; one of an agent that is asked knows who asks. -/
inductive Route where
  | turn (cronSource : Bool) (toolNames pluginTools : List String) (maxIterations : Nat)
  | asked (callerAgentId : String)

/-- Whether the loop runs for a message. -/
def Route.isTurn : Route → Bool
  | .turn .. => true
  | .asked _ => false

/-- How far a loop has come: its engine thinks, the gate waits for a decision on a reply,
the calls of a reply that are left are executed, the loop of an agent that it asks runs, or
it is over. -/
inductive Stage where
  | thinking
  | gating (calls : List ToolCall) (entries : List ApprovalEntry) (severity : Severity)
  | executing (rest : List ToolCall) (denied : List String)
  | asking (child : Nat) (call : ToolCall) (rest : List ToolCall) (denied : List String)
  | ended

/-- A loop executes its calls under the name of one agent. -/
structure Loop where
  agentId : String
  route : Route
  iteration : Nat
  rejections : List (String × ToolRejection)
  stage : Stage

/-- What executes a call. -/
inductive Place where
  | plugin
  | kernel (toolName : String)
  | server (serverId : String)
  deriving DecidableEq

/-- The gate has looked at the calls of a reply, or a call is executed for an agent. -/
inductive Event where
  | gated (loop : Nat) (agentId : String) (calls : List ToolCall) (denied : List String)
  | executed (loop : Nat) (agentId : String) (call : ToolCall) (place : Place)

/-- The loops, what they share, and what happened. -/
structure State where
  shared : Shared
  loops : List Loop
  events : List Event

/-- A kernel in which no turn has begun. -/
def State.init (shared : Shared) : State where
  shared := shared
  loops := []
  events := []

/-- What is shared changes in any way; a turn begins a loop; a loop ends, with an answer of
its engine, an error or from outside; an engine requests calls; the decision that a gate
waits for comes; a loop takes its next call, which ends in some way, or asks an agent that
is there; what an asked agent has answered comes back, or the time for it is over. -/
inductive Label where
  | change (shared : Shared)
  | start (agentId : String) (route : Route)
  | final (loop : Nat)
  | reply (loop : Nat) (calls : List ToolCall)
  | decide (loop : Nat) (decision : Option CommandApprovalDecision)
  | execute (loop : Nat) (outcome : ToolOutcome) (available : Bool)
  | resume (loop : Nat) (outcome : ToolOutcome)

namespace State

/-- The loop is in a new state. -/
def setLoop (state : State) (n : Nat) (loop : Loop) : State :=
  { state with loops := state.loops.set n loop }

/-- One more event. -/
def log (state : State) (event : Event) : State :=
  { state with events := state.events ++ [event] }

end State

/-! ## The steps of a loop -/

/-- Ask the engine once more, where that is not too often. -/
def Loop.iterate (loop : Loop) : Loop :=
  match loop.route with
  | .turn _ _ _ maxIterations =>
      if maxIterations < min (loop.iteration + 1) 255 then { loop with stage := .ended }
      else { loop with iteration := min (loop.iteration + 1) 255, stage := .thinking }
  | .asked _ =>
      if Mcp.maxToolIterations < loop.iteration + 1 then { loop with stage := .ended }
      else { loop with iteration := loop.iteration + 1, stage := .thinking }

/-- A call of a loop has ended in some way.  In the loop of a turn a rejection can break off
the work on the reply, and the loop with it. -/
def Loop.settle (loop : Loop) (call : ToolCall) (outcome : ToolOutcome) (rest : List ToolCall)
    (denied : List String) : Loop :=
  let onwards := { loop with stage := .executing rest denied }
  match loop.route, outcome.rejection? with
  | .turn .., some rejection =>
      let rejections := loop.rejections ++ [(call.name, rejection)]
      if breaks loop.rejections rejection then { loop with rejections, stage := .ended }
      else { onwards with rejections }
  | _, _ => onwards

/-- `run_approval_gate`, up to the decision where it asks for one. -/
def State.gate (state : State) (n : Nat) (loop : Loop) (cronSource : Bool)
    (calls : List ToolCall) : State :=
  let pass := (state.setLoop n { loop with stage := .executing calls [] }).log
    (.gated n loop.agentId calls [])
  if cronSource then pass
  else if state.shared.yoloMode then pass
  else
    let (entries, severity) := collectUntrustedCommands state.shared.manager state.shared.store
      state.shared.session loop.agentId calls
    if entries.isEmpty then pass
    else state.setLoop n { loop with stage := .gating calls entries severity }

/-- `process_approval_decision`, at the end of the gate. -/
def State.decided (state : State) (n : Nat) (loop : Loop) (calls : List ToolCall)
    (entries : List ApprovalEntry) (severity : Severity)
    (decision : Option CommandApprovalDecision) : State :=
  let outcome := processApprovalDecision decision loop.agentId entries severity
    state.shared.store state.shared.session
  let after : State :=
    { state with shared :=
        { state.shared with store := outcome.store, session := outcome.session } }
  (after.setLoop n { loop with stage := .executing calls outcome.denied }).log
    (.gated n loop.agentId calls outcome.denied)

/-- `yolo_required_rejection` -/
def yoloRequiredRejection : ToolRejection where
  code := .yoloRequired
  reason :=
    "This tool is restricted to privileged (YOLO) mode, which is currently disabled by the " ++
      "operator. The kernel will reject identical requests until the operator re-enables " ++
      "privileged mode in the dashboard."
  remediationHint := some "Ask the operator to enable YOLO mode in Settings → Security."
  retryable := true

/-- `MAX_DELEGATION_DEPTH` -/
def maxDelegationDepth : Nat := 3

/-- The texts of an array, where it holds nothing else. -/
def textsOf (value : Value) : Option (List String) :=
  value.asArray.bind fun items => items.mapM Value.asStr

/-- `execute_mgp_agent_ask`, up to the lookup of the agent that is asked. -/
def askTarget (yoloMode : Bool) (args : Value) : Except ToolOutcome String :=
  if yoloMode then
    match args.getStr "target_agent_id", args.getStr "prompt" with
    | none, _ => .error (.error "Missing required parameter: target_agent_id")
    | some _, none => .error (.error "Missing required parameter: prompt")
    | some target, some _ =>
        let caller := (args.getStr "agent_id").getD "unknown"
        let chain := ((args.get "_delegation_chain").bind textsOf).getD []
        if caller = target then
          .error <| .rejected {
            code := .selfDelegation
            reason := "Delegation target and caller are the same agent. An agent cannot " ++
              "delegate to itself; this is a hard logical constraint enforced by the kernel."
            remediationHint := none
            retryable := false }
        else if maxDelegationDepth ≤ chain.length then
          .error <| .rejected {
            code := .delegationDepth
            reason := "Inter-agent delegation chain exceeded the maximum depth limit (chain " ++
              s!"length: {chain.length}, maximum: {maxDelegationDepth}). This is a hard " ++
              "logical constraint enforced by the kernel to prevent runaway delegation."
            remediationHint := none
            retryable := false }
        else if chain.contains target then
          .error <| .rejected {
            code := .delegationCycle
            reason := "Inter-agent delegation would form a cycle — the target agent " ++
              s!"'{target}' is already in the current delegation chain. This is a hard " ++
              "logical constraint enforced by the kernel."
            remediationHint := none
            retryable := false }
        else .ok target
  else .error (.rejected yoloRequiredRejection)

/-- The loop of an agent that is asked. -/
def askedLoop (target caller : String) : Loop where
  agentId := target
  route := .asked caller
  iteration := 1
  rejections := []
  stage := .thinking

/-- A call as the other loop knows it. -/
def asRequest (call : ToolCall) : Mcp.ToolCall :=
  ⟨call.id, call.name, call.arguments⟩

/-- `execute_mgp_agent_ask`: a loop for the agent that is asked, where it is available. -/
def State.ask (state : State) (n : Nat) (loop : Loop) (call : ToolCall) (rest : List ToolCall)
    (denied : List String) (outcome : ToolOutcome) (available : Bool) : State :=
  match askTarget state.shared.yoloMode (Mcp.safeArgs loop.agentId (asRequest call)) with
  | .error refusal => state.setLoop n (loop.settle call refusal rest denied)
  | .ok target =>
      if available then
        let waiting := { loop with stage := .asking state.loops.length call rest denied }
        { state with loops := state.loops.set n waiting ++ [askedLoop target loop.agentId] }
      else state.setLoop n (loop.settle call outcome rest denied)

/-- The body of the loop over the calls of a reply, for a turn: `execute_tool_for_agent`
behind the denied ids and the names that the agent was shown. -/
def State.executeOwn (texts : Access.Texts) (state : State) (n : Nat) (loop : Loop)
    (toolNames pluginTools : List String) (call : ToolCall) (rest : List ToolCall)
    (denied : List String) (outcome : ToolOutcome) (available : Bool) : State :=
  let skip := state.setLoop n { loop with stage := .executing rest denied }
  let settled := state.setLoop n (loop.settle call outcome rest denied)
  if denied.contains call.id then skip
  else if toolNames.contains call.name then
    if pluginTools.contains call.name then settled.log (.executed n loop.agentId call .plugin)
    else
      match Mcp.executeToolInternal texts state.shared.calls (.agent loop.agentId) call.name
          (Mcp.safeArgs loop.agentId (asRequest call)) with
      | .error _ => settled
      | .ok (.server serverId _) => settled.log (.executed n loop.agentId call (.server serverId))
      | .ok (.kernel toolName) =>
          if toolName = "mgp.agent.ask" then
            state.ask n loop call rest denied outcome available
          else settled.log (.executed n loop.agentId call (.kernel toolName))
  else skip

/-- The body of the loop over the calls of a reply, for an agent that is asked. -/
def State.executeAsked (texts : Access.Texts) (state : State) (n : Nat) (loop : Loop)
    (callerAgentId : String) (call : ToolCall) (rest : List ToolCall) (denied : List String) :
    State :=
  let onwards := state.setLoop n { loop with stage := .executing rest denied }
  match Mcp.askCall texts state.shared.calls loop.agentId callerAgentId (asRequest call) with
  | .ok executed => onwards.log (.executed n loop.agentId call (.server executed.serverId))
  | .error _ => onwards

/-- A loop is over, and with it the one of an agent that it asks. -/
def State.finish (state : State) (n : Nat) (loop : Loop) : State :=
  let ended := state.setLoop n { loop with stage := .ended }
  match loop.stage with
  | .asking child _ _ _ =>
      match ended.loops[child]? with
      | some asked => ended.setLoop child { asked with stage := .ended }
      | none => ended
  | _ => ended

/-- A step of a loop, or a change of what they share. -/
def step (texts : Access.Texts) : Action State Label
  | state, .change shared => some { state with shared }
  | state, .start agentId route =>
      if route.isTurn then
        some { state with loops := state.loops ++
          [Loop.iterate ⟨agentId, route, 0, [], .thinking⟩] }
      else none
  | state, .final n => (state.loops[n]?).map (state.finish n)
  | state, .reply n calls =>
      (state.loops[n]?).bind fun loop =>
        match loop.stage, loop.route with
        | .thinking, .turn cronSource _ _ _ => some (state.gate n loop cronSource calls)
        | .thinking, .asked _ =>
            some (state.setLoop n { loop with stage := .executing calls [] })
        | _, _ => none
  | state, .decide n decision =>
      (state.loops[n]?).bind fun loop =>
        match loop.stage with
        | .gating calls entries severity =>
            some (state.decided n loop calls entries severity decision)
        | _ => none
  | state, .execute n outcome available =>
      (state.loops[n]?).bind fun loop =>
        match loop.stage, loop.route with
        | .executing [] _, _ => some (state.setLoop n loop.iterate)
        | .executing (call :: rest) denied, .turn _ toolNames pluginTools _ =>
            some (state.executeOwn texts n loop toolNames pluginTools call rest denied outcome
              available)
        | .executing (call :: rest) denied, .asked callerAgentId =>
            some (state.executeAsked texts n loop callerAgentId call rest denied)
        | _, _ => none
  | state, .resume n outcome =>
      (state.loops[n]?).bind fun loop =>
        match loop.stage with
        | .asking _ call rest denied =>
            some ((state.finish n loop).setLoop n (loop.settle call outcome rest denied))
        | _ => none

/-! ## What the gate has seen -/

variable {texts : Access.Texts} {state next : State} {n : Nat} {loop : Loop}
  {calls rest : List ToolCall} {denied : List String}

/-- The gate has looked at calls for an agent, and denied these. -/
def Gated (events : List Event) (n : Nat) (agentId : String) (calls : List ToolCall)
    (denied : List String) : Prop :=
  ∃ all, Event.gated n agentId all denied ∈ events ∧ calls ⊆ all

/-- A loop of a turn that is to execute calls has had them looked at. -/
def Loop.Passed (loop : Loop) (events : List Event) (n : Nat) : Prop :=
  loop.route.isTurn = true ∧
    match loop.stage with
    | .executing rest denied => Gated events n loop.agentId rest denied
    | .asking .. => False
    | _ => True

/-- Each call that is executed was looked at before, for the agent under whose name it is
executed, and not denied. -/
def Approved (events : List Event) : Prop :=
  ∀ before n agentId call place after,
    events = before ++ .executed n agentId call place :: after →
      ∃ calls denied, Event.gated n agentId calls denied ∈ before ∧ call ∈ calls ∧
        call.id ∉ denied

/-- There are loops of turns only, and what they are to execute has been looked at. -/
structure Guarded (state : State) : Prop where
  passed : ∀ n (loop : Loop), state.loops[n]? = some loop → loop.Passed state.events n
  approved : Approved state.events

theorem guarded_init (shared : Shared) : Guarded (.init shared) := by
  constructor
  · intro n loop here
    simp [State.init] at here
  · intro before n agentId call place after split
    simp [State.init] at split

theorem Gated.mono {events more : List Event} {agentId : String}
    (gated : Gated events n agentId calls denied) (kept : events ⊆ more) :
    Gated more n agentId calls denied := by
  rcases gated with ⟨all, mem, subset⟩
  exact ⟨all, kept mem, subset⟩

theorem Gated.tail {events : List Event} {agentId : String} {call : ToolCall}
    (gated : Gated events n agentId (call :: rest) denied) :
    Gated events n agentId rest denied := by
  rcases gated with ⟨all, mem, subset⟩
  exact ⟨all, mem, fun other here => subset (List.mem_cons_of_mem call here)⟩

theorem Loop.Passed.mono {events more : List Event} (passed : loop.Passed events n)
    (kept : events ⊆ more) : loop.Passed more n := by
  rcases loop with ⟨agentId, route, iteration, rejections, stage⟩
  refine ⟨passed.1, ?_⟩
  cases stage with
  | executing rest denied => exact Gated.mono passed.2 kept
  | asking child call rest denied => exact passed.2
  | thinking => trivial
  | gating calls entries severity => trivial
  | ended => trivial

/-- An event of a longer trace is the last one, or one of the trace before. -/
theorem split_log {events before after : List Event} {event item : Event}
    (split : events ++ [event] = before ++ item :: after) :
    (events = before ∧ event = item) ∨ ∃ front, events = before ++ item :: front := by
  rcases List.eq_nil_or_concat after with rfl | ⟨front, last, rfl⟩
  · have ⟨same, last⟩ := List.append_inj' split rfl
    exact .inl ⟨same, List.head_eq_of_cons_eq last⟩
  · rw [List.concat_eq_append, ← List.cons_append, ← List.append_assoc] at split
    exact .inr ⟨front, (List.append_inj' split rfl).1⟩

/-- What the gate has looked at before is approved. -/
theorem Approved.log_executed {events : List Event} {agentId : String} {call : ToolCall}
    {place : Place} (approved : Approved events)
    (gated : Gated events n agentId (call :: rest) denied) (free : call.id ∉ denied) :
    Approved (events ++ [.executed n agentId call place]) := by
  intro before m other executed at' after split
  rcases split_log split with ⟨rfl, same⟩ | ⟨front, earlier⟩
  · cases same
    rcases gated with ⟨all, mem, subset⟩
    exact ⟨all, denied, mem, subset List.mem_cons_self, free⟩
  · exact approved before m other executed at' front earlier

theorem Approved.log_gated {events : List Event} {agentId : String} (approved : Approved events) :
    Approved (events ++ [.gated n agentId calls denied]) := by
  intro before m other executed place after split
  rcases split_log split with ⟨-, same⟩ | ⟨front, earlier⟩
  · cases same
  · exact approved before m other executed place front earlier

/-- A loop is replaced by one that may go on. -/
theorem Guarded.setLoop (guarded : Guarded state) (passed : loop.Passed state.events n) :
    Guarded (state.setLoop n loop) := by
  refine ⟨?_, guarded.approved⟩
  intro m other here
  simp only [State.setLoop, List.getElem?_set] at here
  split at here
  · rename_i same
    subst same
    split at here
    · cases here
      exact passed
    · cases here
  · exact guarded.passed m other here

theorem Guarded.log {event : Event} (guarded : Guarded state)
    (approved : Approved (state.events ++ [event])) : Guarded (state.log event) := by
  refine ⟨?_, approved⟩
  intro m other here
  exact (guarded.passed m other here).mono (List.subset_append_left _ _)

/-- A loop is replaced once what it needs is recorded. -/
theorem Guarded.log_setLoop {event : Event} (guarded : Guarded state)
    (approved : Approved (state.events ++ [event]))
    (passed : loop.Passed (state.events ++ [event]) n) :
    Guarded ((state.setLoop n loop).log event) :=
  Guarded.setLoop (guarded.log approved) passed

/-- Where a loop may execute calls, it may go on after one of them. -/
theorem Loop.passed_settle {events : List Event} {call : ToolCall} {outcome : ToolOutcome}
    (turn : loop.route.isTurn = true) (gated : Gated events n loop.agentId rest denied) :
    (loop.settle call outcome rest denied).Passed events n := by
  unfold Loop.settle
  split
  · dsimp only
    split
    · exact ⟨turn, trivial⟩
    · exact ⟨turn, gated⟩
  · exact ⟨turn, gated⟩

theorem Loop.passed_iterate {events : List Event} (turn : loop.route.isTurn = true) :
    loop.iterate.Passed events n := by
  unfold Loop.iterate
  split
  · split
    · exact ⟨turn, trivial⟩
    · exact ⟨turn, trivial⟩
  · split
    · exact ⟨turn, trivial⟩
    · exact ⟨turn, trivial⟩

/-- The gate looks at the calls before the loop goes on. -/
theorem Guarded.gate {cronSource : Bool} (guarded : Guarded state)
    (turn : loop.route.isTurn = true) : Guarded (state.gate n loop cronSource calls) := by
  have pass : Guarded ((state.setLoop n { loop with stage := .executing calls [] }).log
      (.gated n loop.agentId calls [])) := by
    apply guarded.log_setLoop guarded.approved.log_gated
    exact ⟨turn, calls, List.mem_append_right _ (List.mem_singleton_self _), fun _ here => here⟩
  unfold State.gate
  dsimp only
  split
  · exact pass
  · split
    · exact pass
    · split
      · exact pass
      · exact guarded.setLoop ⟨turn, trivial⟩

theorem Guarded.decided {entries : List ApprovalEntry} {severity : Severity}
    {decision : Option CommandApprovalDecision} (guarded : Guarded state)
    (turn : loop.route.isTurn = true) :
    Guarded (state.decided n loop calls entries severity decision) := by
  unfold State.decided
  dsimp only
  apply Guarded.log_setLoop
  · exact ⟨guarded.passed, guarded.approved⟩
  · exact guarded.approved.log_gated
  · exact ⟨turn, calls, List.mem_append_right _ (List.mem_singleton_self _), fun _ here => here⟩

/-- Without the privileged mode no agent is asked. -/
theorem ask_of_off {call : ToolCall} {outcome : ToolOutcome} {available : Bool}
    (off : state.shared.yoloMode = false) :
    state.ask n loop call rest denied outcome available =
      state.setLoop n (loop.settle call (.rejected yoloRequiredRejection) rest denied) := by
  unfold State.ask
  rw [off]
  rfl

theorem Guarded.executeOwn {toolNames pluginTools : List String} {call : ToolCall}
    {outcome : ToolOutcome} {available : Bool} (guarded : Guarded state)
    (off : state.shared.yoloMode = false) (turn : loop.route.isTurn = true)
    (gated : Gated state.events n loop.agentId (call :: rest) denied) :
    Guarded (state.executeOwn texts n loop toolNames pluginTools call rest denied outcome
      available) := by
  have skip : Guarded (state.setLoop n { loop with stage := .executing rest denied }) :=
    guarded.setLoop ⟨turn, gated.tail⟩
  have settled : ∀ outcome, Guarded (state.setLoop n (loop.settle call outcome rest denied)) :=
    fun outcome => guarded.setLoop (Loop.passed_settle turn gated.tail)
  unfold State.executeOwn
  dsimp only
  split
  · exact skip
  · rename_i free
    have notDenied : call.id ∉ denied := by simpa using free
    have logged : ∀ place, Guarded ((state.setLoop n (loop.settle call outcome rest denied)).log
        (.executed n loop.agentId call place)) :=
      fun place => (settled outcome).log (guarded.approved.log_executed gated notDenied)
    split
    · split
      · exact logged .plugin
      · split
        · exact settled outcome
        · exact logged _
        · split
          · rw [ask_of_off off]
            exact settled _
          · exact logged _
    · exact skip

/-- A turn begins a loop. -/
theorem Guarded.start {agentId : String} {route : Route} (guarded : Guarded state)
    (turn : route.isTurn = true) :
    Guarded { state with loops := state.loops ++
      [Loop.iterate ⟨agentId, route, 0, [], .thinking⟩] } := by
  refine ⟨?_, guarded.approved⟩
  intro n loop here
  rw [List.getElem?_append] at here
  split at here
  · exact guarded.passed n loop here
  · have same := List.mem_singleton.mp (List.mem_of_getElem? here)
    rw [same]
    exact Loop.passed_iterate turn

/-- A loop that may go on may end. -/
theorem Guarded.finish (guarded : Guarded state) (here : state.loops[n]? = some loop) :
    Guarded (state.finish n loop) := by
  have passed := guarded.passed n loop here
  have ended : Guarded (state.setLoop n { loop with stage := .ended }) :=
    guarded.setLoop ⟨passed.1, trivial⟩
  unfold State.finish
  dsimp only
  split
  · rename_i waiting
    have impossible := passed.2
    rw [waiting] at impossible
    exact impossible.elim
  · exact ended

/-- A step without the privileged mode keeps to what the gate has looked at. -/
theorem Guarded.step {label : Label} (guarded : Guarded state)
    (off : state.shared.yoloMode = false)
    (stepEq : ApprovedCalls.step texts state label = some next) : Guarded next := by
  cases label with
  | change shared =>
      cases stepEq
      exact ⟨guarded.passed, guarded.approved⟩
  | start agentId route =>
      simp only [ApprovedCalls.step] at stepEq
      split at stepEq
      · rename_i turn
        cases stepEq
        exact guarded.start turn
      · cases stepEq
  | final n =>
      rcases Option.map_eq_some_iff.mp stepEq with ⟨loop, here, rfl⟩
      exact guarded.finish here
  | reply n calls =>
      rcases Option.bind_eq_some_iff.mp stepEq with ⟨loop, here, stepEq⟩
      have passed := guarded.passed n loop here
      split at stepEq
      · cases stepEq
        exact guarded.gate passed.1
      · rename_i asked
        have turn := passed.1
        rw [asked] at turn
        cases turn
      · cases stepEq
  | decide n decision =>
      rcases Option.bind_eq_some_iff.mp stepEq with ⟨loop, here, stepEq⟩
      split at stepEq
      · cases stepEq
        exact guarded.decided (guarded.passed n loop here).1
      · cases stepEq
  | execute n outcome available =>
      rcases Option.bind_eq_some_iff.mp stepEq with ⟨loop, here, stepEq⟩
      have passed := guarded.passed n loop here
      split at stepEq
      · cases stepEq
        exact guarded.setLoop (Loop.passed_iterate passed.1)
      · rename_i executing _
        cases stepEq
        have gated := passed.2
        rw [executing] at gated
        exact guarded.executeOwn off passed.1 gated
      · rename_i asked
        have turn := passed.1
        rw [asked] at turn
        cases turn
      · cases stepEq
  | resume n outcome =>
      rcases Option.bind_eq_some_iff.mp stepEq with ⟨loop, here, stepEq⟩
      split at stepEq
      · rename_i waiting
        have impossible := (guarded.passed n loop here).2
        rw [waiting] at impossible
        exact impossible.elim
      · cases stepEq

/-- In a run in which the privileged mode is off, every call that an engine requests and that
is executed was first looked at by the gate, for the agent under whose name it is executed,
and is not among the ids that the gate denied. -/
theorem approved_of_off (texts : Access.Texts) (shared : Shared) (labels : List Label)
    (target : State)
    (off : Along (step texts) (fun state _ => state.shared.yoloMode = false) (.init shared) labels)
    (ran : run (step texts) (.init shared) labels = some target) : Approved target.events := by
  have guarded : Guarded target :=
    run_invariant_along Guarded (fun _ _ _ guarded off stepEq => guarded.step off stepEq)
      (guarded_init shared) off ran
  exact guarded.approved

/-! ## A call that was asked about -/

/-- An agent with one tool of a server, about which the gate knows nothing. -/
def quietShared : Shared where
  yoloMode := false
  calls := Mcp.filesState
  manager := ⟨[], []⟩
  store := ⟨[], fun _ _ => false⟩
  session := .empty

/-- The request to read a file. -/
def readCall : ToolCall :=
  ⟨"call-1", "read_file", .object []⟩

/-- The gate asks about the call, it is approved, and then it is executed. -/
def askedLabels : List Label :=
  [.start "agent.a" (.turn false ["read_file"] [] 8), .reply 0 [readCall],
    .decide 0 (some .approve), .execute 0 (.value "text") false]

theorem approved_readCall :
    ∃ target, run (step Mcp.plainTexts) (.init quietShared) askedLabels = some target ∧
      target.events.length = 2 ∧ Approved target.events := by
  have runs : ((run (step Mcp.plainTexts) (.init quietShared) askedLabels).map
      fun target => target.events.length) = some 2 := by decide +kernel
  rcases Option.map_eq_some_iff.mp runs with ⟨target, ran, two⟩
  have off : Along (step Mcp.plainTexts) (fun state _ => state.shared.yoloMode = false)
      (.init quietShared) askedLabels := by decide +kernel
  exact ⟨target, ran, two, approved_of_off Mcp.plainTexts quietShared askedLabels target off ran⟩

end ClotoCore.Turns.ApprovedCalls
