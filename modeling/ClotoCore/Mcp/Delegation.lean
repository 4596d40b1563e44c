import ClotoCore.Mcp.ToolCall

/-!
# Calls for another agent

An agent asks another one, whose engine then requests tools for a few rounds.  A
request is executed under the target's name after the caller's grant has been
looked at.  The caller's argument rules are not, and neither are those of the
actor that the metadata of a delegated call goes back to.
-/

namespace ClotoCore.Mcp

open ClotoCore.Access ClotoCore.Json

/-! ## Requests -/

/-- `ToolCall` -/
structure ToolCall where
  id : String
  name : String
  arguments : Value

/-- `ThinkResult` -/
inductive ThinkResult where
  | final (content : String)
  | toolCalls (assistantContent : Option String) (calls : List ToolCall)

/-- `Map::insert`, where the value is an object. -/
def insertMember (value : Value) (name : String) (member : Value) : Value :=
  match value with
  | .object members => .object (members.filter (fun entry => entry.1 != name) ++ [(name, member)])
  | other => other

/-- The text of a failure. -/
def failureText : ToolFailure → String
  | .rejection reason _ => s!"rejected (AccessDenied): {reason}"
  | .mgpError code message => s!"MGP-{code}: {message}"
  | .error message => message

/-- `check_tool_access` -/
def checkToolAccess (state : CallState) (agentId toolName : String) :
    Except String PermissionLevel :=
  match state.manager.toolIndex toolName with
  | none => .error s!"MCP tool '{toolName}' not found"
  | some serverId => state.database.toolAccess agentId serverId toolName

/-- A call that was forwarded, and the state it was decided in. -/
structure ExecutedCall where
  state : CallState
  serverId : String
  toolName : String
  args : Value

/-- The arguments of a request under the target's name. -/
def safeArgs (targetAgentId : String) (call : ToolCall) : Value :=
  insertMember call.arguments "agent_id" (.string targetAgentId)

/-- One request of the target's engine: it is forwarded, or refused with a text. -/
def askCall (texts : Texts) (state : CallState) (targetAgentId callerAgentId : String)
    (call : ToolCall) : Except String ExecutedCall :=
  let name := call.name
  match state.manager.toolIndex name with
  | none => .error s!"Tool '{name}' not found in any connected server"
  | some serverId =>
      match checkToolAccess state callerAgentId name with
      | .ok .allow =>
          match resolveToolCallTarget texts state (.agent targetAgentId) serverId name
              (safeArgs targetAgentId call) with
          | .ok _ => .ok ⟨state, serverId, name, safeArgs targetAgentId call⟩
          | .error failure => .error (failureText failure)
      | _ => .error
          s!"Delegation denied: caller '{callerAgentId}' is not granted tool '{name}' (MGP §5.6.1 caller∩target)"

/-! ## Rounds -/

/-- What the loop does not decide: the state at each of its steps, what the engine
replies with tools and without, and what a server answers. -/
structure AskWorld where
  state : Nat → CallState
  thinkWithTools : Value → Except String ThinkResult
  think : Value → Except String String
  answer : ExecutedCall → String

/-- How far a loop has come.  The requests it took are kept with the states they were
decided in. -/
structure AskProgress where
  step : Nat
  toolHistory : List Value
  requests : List (CallState × ToolCall)
  executed : List ExecutedCall

/-- The message of the engine that requests calls. -/
def assistantMessage (texts : Texts) (content : Option String) (calls : List ToolCall) : Value :=
  .object
    [("role", .string "assistant"), ("content", .string (content.getD "")),
      ("tool_calls", .array (calls.map fun call => .object
        [("id", .string call.id), ("type", .string "function"),
          ("function", .object
            [("name", .string call.name),
              ("arguments", .string (texts.display call.arguments))])]))]

/-- The message with the result of one call. -/
def toolMessage (call : ToolCall) (content : String) : Value :=
  .object
    [("role", .string "tool"), ("tool_call_id", .string call.id), ("content", .string content)]

/-- Take one request. -/
def askCallStep (texts : Texts) (world : AskWorld) (targetAgentId callerAgentId : String)
    (progress : AskProgress) (call : ToolCall) : AskProgress :=
  let requests := progress.requests ++ [(world.state progress.step, call)]
  match askCall texts (world.state progress.step) targetAgentId callerAgentId call with
  | .ok executed =>
      { step := progress.step + 1
        toolHistory := progress.toolHistory ++ [toolMessage call (world.answer executed)]
        requests := requests
        executed := progress.executed ++ [executed] }
  | .error problem =>
      { progress with
        step := progress.step + 1
        toolHistory := progress.toolHistory ++ [toolMessage call s!"Error: {problem}"]
        requests := requests }

/-- `MGP_AGENT_ASK_MAX_TOOL_ITERATIONS` -/
def maxToolIterations : Nat := 5

/-- The rounds that are left, each of which asks the target's engine under the
target's own name. -/
def askRounds (texts : Texts) (world : AskWorld) (engineId : String) (loopArgs : Value)
    (targetAgentId callerAgentId : String) : Nat → AskProgress → AskProgress × Except String String
  | 0, progress => (progress, .error "mgp.agent.ask agentic loop exceeded 5 iterations")
  | left + 1, progress =>
      let args := insertMember loopArgs "tool_history" (.array progress.toolHistory)
      match resolveToolCallTarget texts (world.state progress.step) (.agent targetAgentId) engineId
          "think_with_tools" args with
      | .error failure => (progress, .error (failureText failure))
      | .ok _ =>
          match world.thinkWithTools args with
          | .error problem => (progress, .error problem)
          | .ok (.final content) => (progress, .ok content)
          | .ok (.toolCalls content calls) =>
              askRounds texts world engineId loopArgs targetAgentId callerAgentId left <|
                calls.foldl (askCallStep texts world targetAgentId callerAgentId)
                  { progress with
                    step := progress.step + 1
                    toolHistory := progress.toolHistory ++ [assistantMessage texts content calls] }

/-- The rounds of a loop, from the first on. -/
def askRun (texts : Texts) (world : AskWorld) (engineId : String) (thinkArgs : Value)
    (tools : List Value) (targetAgentId callerAgentId : String) :
    AskProgress × Except String String :=
  askRounds texts world engineId (insertMember thinkArgs "tools" (.array tools)) targetAgentId
    callerAgentId maxToolIterations ⟨0, [], [], []⟩

/-- The requests of a loop, each with the state it is decided in. -/
def requestsOf (texts : Texts) (world : AskWorld) (engineId : String) (thinkArgs : Value)
    (tools : List Value) (targetAgentId callerAgentId : String) : List (CallState × ToolCall) :=
  if tools.isEmpty then []
  else (askRun texts world engineId thinkArgs tools targetAgentId callerAgentId).1.requests

/-- `run_mgp_agent_ask_loop`: the calls that were forwarded, and the answer. -/
def runMgpAgentAskLoop (texts : Texts) (world : AskWorld) (engineId : String) (thinkArgs : Value)
    (tools : List Value) (targetAgentId callerAgentId : String) :
    List ExecutedCall × Except String String :=
  if tools.isEmpty then
    match resolveToolCallTarget texts (world.state 0) (.agent targetAgentId) engineId "think"
        thinkArgs with
    | .error failure => ([], .error (failureText failure))
    | .ok _ => ([], world.think thinkArgs)
  else
    let run := askRun texts world engineId thinkArgs tools targetAgentId callerAgentId
    (run.1.executed, run.2)

/-! ## The rights of both -/

/-- The access rows grant a call to both agents, and the argument rules of both admit
its arguments. -/
structure Intersection (texts : Texts) (database : Database)
    (first second serverId toolName : String) (args : Value) : Prop where
  firstGranted : Granted database first serverId toolName
  secondGranted : Granted database second serverId toolName
  firstRules : MeetsRules texts database first serverId toolName args
  secondRules : MeetsRules texts database second serverId toolName args

/-- What is looked at before a call of an agent is forwarded. -/
structure Forwardable (texts : Texts) (state : CallState) (agentId serverId toolName : String)
    (args : Value) : Prop where
  granted : Granted state.database agentId serverId toolName
  rules : MeetsRules texts state.database agentId serverId toolName args
  delegation : DelegationAdmitted state serverId toolName args
  connected : ∃ client, clientOf state.manager serverId = .ok client
  validated : validateCall texts toolName args = .ok ()

/-- The actor that the metadata of a call goes back to. -/
def originalActor (args : Value) : Option String :=
  (delegationOf args).bind fun delegation => delegation.getStr "original_actor"

section Rights

variable {texts : Texts} {world : AskWorld} {targetAgentId callerAgentId engineId : String}
  {loopArgs : Value}

theorem exists_resolveToolCallTarget_iff {state : CallState} {agentId serverId toolName : String}
    {args : Value} :
    (∃ client, resolveToolCallTarget texts state (.agent agentId) serverId toolName args =
        .ok client) ↔ Forwardable texts state agentId serverId toolName args := by
  simp only [resolveToolCallTarget_iff, enforceCallerGrant_agent_iff]
  constructor
  · rintro ⟨client, ⟨granted, rules⟩, delegation, connected, validated⟩
    exact ⟨granted, rules, delegation, ⟨client, connected⟩, validated⟩
  · rintro ⟨granted, rules, delegation, ⟨client, connected⟩, validated⟩
    exact ⟨client, ⟨granted, rules⟩, delegation, connected, validated⟩

theorem checkToolAccess_of_index {state : CallState} {agentId toolName serverId : String}
    (index : state.manager.toolIndex toolName = some serverId) :
    checkToolAccess state agentId toolName =
      state.database.toolAccess agentId serverId toolName := by
  rw [checkToolAccess, index]

/-- A request is forwarded exactly if the caller is granted the tool and the target may
make the call. -/
theorem askCall_eq_ok_iff {state : CallState} {call : ToolCall} {executed : ExecutedCall} :
    askCall texts state targetAgentId callerAgentId call = .ok executed ↔
      ∃ serverId, state.manager.toolIndex call.name = some serverId ∧
        Granted state.database callerAgentId serverId call.name ∧
        Forwardable texts state targetAgentId serverId call.name (safeArgs targetAgentId call) ∧
        executed = ⟨state, serverId, call.name, safeArgs targetAgentId call⟩ := by
  unfold askCall
  dsimp only
  cases index : state.manager.toolIndex call.name with
  | none => simp
  | some serverId =>
      rw [checkToolAccess_of_index index]
      simp only [Option.some.injEq, exists_eq_left', Granted]
      split
      · rename_i caller
        rw [← exists_resolveToolCallTarget_iff]
        cases resolved : resolveToolCallTarget texts state (.agent targetAgentId) serverId
            call.name (safeArgs targetAgentId call) with
        | error failure => simp
        | ok client =>
            simp only [caller, Except.ok.injEq, exists_eq', true_and]
            exact eq_comm
      · rename_i refused
        constructor
        · intro forwarded
          cases forwarded
        · rintro ⟨caller, -⟩
          exact absurd caller refused

/-- The calls of some requests that are forwarded. -/
def forwarded (texts : Texts) (targetAgentId callerAgentId : String)
    (requests : List (CallState × ToolCall)) : List ExecutedCall :=
  requests.filterMap fun request =>
    (askCall texts request.1 targetAgentId callerAgentId request.2).toOption

/-- Step: a request is recorded, and executed if it is forwarded. -/
theorem executed_step {progress : AskProgress} (call : ToolCall)
    (before : progress.executed =
      forwarded texts targetAgentId callerAgentId progress.requests) :
    (askCallStep texts world targetAgentId callerAgentId progress call).executed =
      forwarded texts targetAgentId callerAgentId
        (askCallStep texts world targetAgentId callerAgentId progress call).requests := by
  unfold askCallStep
  dsimp only
  split
  · rename_i executed asked
    simp [forwarded, before, asked, Except.toOption]
  · rename_i problem asked
    simp [forwarded, before, asked, Except.toOption]

/-- A round: the requests of one reply. -/
theorem executed_calls (calls : List ToolCall) {progress : AskProgress}
    (before : progress.executed =
      forwarded texts targetAgentId callerAgentId progress.requests) :
    (calls.foldl (askCallStep texts world targetAgentId callerAgentId) progress).executed =
      forwarded texts targetAgentId callerAgentId
        (calls.foldl (askCallStep texts world targetAgentId callerAgentId) progress).requests := by
  induction calls generalizing progress with
  | nil => exact before
  | cons call rest ih => exact ih (executed_step call before)

/-- Run: whatever the engine replies, round after round. -/
theorem executed_rounds (left : Nat) {progress : AskProgress}
    (before : progress.executed =
      forwarded texts targetAgentId callerAgentId progress.requests) :
    (askRounds texts world engineId loopArgs targetAgentId callerAgentId left progress).1.executed =
      forwarded texts targetAgentId callerAgentId
        (askRounds texts world engineId loopArgs targetAgentId callerAgentId left
          progress).1.requests := by
  induction left generalizing progress with
  | zero => exact before
  | succ left ih =>
      unfold askRounds
      dsimp only
      split
      · exact before
      · split
        · exact before
        · exact before
        · rename_i content calls _
          apply ih
          exact executed_calls calls before

/-- The calls of a loop are its requests that are forwarded. -/
theorem executed_loop (texts : Texts) (world : AskWorld) (engineId : String) (thinkArgs : Value)
    (tools : List Value) (targetAgentId callerAgentId : String) :
    (runMgpAgentAskLoop texts world engineId thinkArgs tools targetAgentId callerAgentId).1 =
      forwarded texts targetAgentId callerAgentId
        (requestsOf texts world engineId thinkArgs tools targetAgentId callerAgentId) := by
  unfold runMgpAgentAskLoop requestsOf
  split
  · split
    · rfl
    · rfl
  · exact executed_rounds maxToolIterations rfl

/-- A call of a loop, by the request it comes from. -/
theorem mem_executed_iff {thinkArgs : Value} {tools : List Value} {executed : ExecutedCall} :
    executed ∈ (runMgpAgentAskLoop texts world engineId thinkArgs tools targetAgentId
        callerAgentId).1 ↔
      ∃ request ∈ requestsOf texts world engineId thinkArgs tools targetAgentId callerAgentId,
        askCall texts request.1 targetAgentId callerAgentId request.2 = .ok executed := by
  rw [executed_loop, forwarded, List.mem_filterMap]
  apply exists_congr
  intro request
  rw [and_congr_right_iff]
  intro _
  cases askCall texts request.1 targetAgentId callerAgentId request.2 <;> simp [Except.toOption]

end Rights

/-! ## When the rights are those of both -/

/-- A run of the loop executes calls within the rights of both agents. -/
def AskIntersected (texts : Texts) (world : AskWorld) (engineId : String) (thinkArgs : Value)
    (tools : List Value) (targetAgentId callerAgentId : String) : Prop :=
  ∀ call ∈ (runMgpAgentAskLoop texts world engineId thinkArgs tools targetAgentId callerAgentId).1,
    Intersection texts call.state.database callerAgentId targetAgentId call.serverId call.toolName
      call.args

/-- A call with the metadata of a delegation is within the rights of the actor it goes
back to and of the agent that makes it. -/
def ChainIntersected (texts : Texts) (state : CallState) (actingAgentId serverId toolName : String)
    (args : Value) : Prop :=
  ∀ client, resolveToolCallTarget texts state (.agent actingAgentId) serverId toolName args =
    .ok client → ∀ actor, originalActor args = some actor →
      Intersection texts state.database actor actingAgentId serverId toolName args

/-- A request that the target may make, of a tool that the caller is granted, meets the
caller's argument rules too. -/
def MeetsCallerRules (texts : Texts) (targetAgentId callerAgentId : String) (state : CallState)
    (call : ToolCall) : Prop :=
  ∀ serverId, state.manager.toolIndex call.name = some serverId →
    Granted state.database callerAgentId serverId call.name →
    Forwardable texts state targetAgentId serverId call.name (safeArgs targetAgentId call) →
      MeetsRules texts state.database callerAgentId serverId call.name
        (safeArgs targetAgentId call)

/-- The calls of a loop are within the rights of both agents exactly if every request
meets the caller's argument rules in the state it is decided in, and so is a delegated
call that is admitted exactly if it meets those of its original actor. -/
theorem intersected_iff (texts : Texts) :
    (∀ (world : AskWorld) (engineId : String) (thinkArgs : Value) (tools : List Value)
      (targetAgentId callerAgentId : String),
      AskIntersected texts world engineId thinkArgs tools targetAgentId callerAgentId ↔
        ∀ request ∈ requestsOf texts world engineId thinkArgs tools targetAgentId callerAgentId,
          MeetsCallerRules texts targetAgentId callerAgentId request.1 request.2) ∧
    ∀ (state : CallState) (actingAgentId serverId toolName : String) (args : Value),
      ChainIntersected texts state actingAgentId serverId toolName args ↔
        (Forwardable texts state actingAgentId serverId toolName args →
          ∀ actor, originalActor args = some actor →
            MeetsRules texts state.database actor serverId toolName args) := by
  constructor
  · intro world engineId thinkArgs tools targetAgentId callerAgentId
    constructor
    · intro intersected request mem serverId index caller target
      have asked := askCall_eq_ok_iff.mpr ⟨serverId, index, caller, target, rfl⟩
      exact (intersected _ (mem_executed_iff.mpr ⟨request, mem, asked⟩)).firstRules
    · intro rules call mem
      obtain ⟨request, requested, asked⟩ := mem_executed_iff.mp mem
      obtain ⟨serverId, index, caller, target, rfl⟩ := askCall_eq_ok_iff.mp asked
      exact ⟨caller, target.granted, rules request requested serverId index caller target,
        target.rules⟩
  · intro state actingAgentId serverId toolName args
    constructor
    · intro intersected admitted actor goesBack
      obtain ⟨client, resolved⟩ := exists_resolveToolCallTarget_iff.mpr admitted
      exact (intersected client resolved actor goesBack).firstRules
    · intro rules client resolved actor goesBack
      have admitted := exists_resolveToolCallTarget_iff.mp ⟨client, resolved⟩
      rcases Option.bind_eq_some_iff.mp goesBack with ⟨delegation, carried, named⟩
      exact ⟨(admitted.delegation.actor delegation carried actor named).2, admitted.granted,
        rules admitted actor goesBack, admitted.rules⟩

/-! ## A rule of the caller -/

/-- Every call for another agent is within the rights of both. -/
def AlwaysIntersected : Prop :=
  ∀ texts : Texts,
    (∀ (world : AskWorld) (engineId : String) (thinkArgs : Value) (tools : List Value)
      (targetAgentId callerAgentId : String),
      AskIntersected texts world engineId thinkArgs tools targetAgentId callerAgentId) ∧
    ∀ (state : CallState) (actingAgentId serverId toolName : String) (args : Value),
      ChainIntersected texts state actingAgentId serverId toolName args

/-- Two agents with one tool, whose path the first one has to name. -/
def ruledState : CallState where
  manager := (Manager.empty.register (connectedHandle "files" ["read_file"]) none).register
    (connectedHandle "engine" ["think_with_tools"]) none
  database :=
    { quietDatabase
        [toolGrant .allow, { toolGrant .allow with agentId := "agent.b" },
          { toolGrant .allow with
            entryType := .serverGrant, agentId := "agent.b", serverId := "engine"
            toolName := none }] with
      ruleRows := [⟨"agent.a", "files", "read_file", .ok [], .ok ["path"]⟩] }

/-- A request without a path. -/
def pathlessCall : ToolCall :=
  ⟨"1", "read_file", .object []⟩

/-- An engine that makes the request in every round. -/
def insistentWorld : AskWorld where
  state := fun _ => ruledState
  thinkWithTools := fun _ => .ok (.toolCalls none [pathlessCall])
  think := fun _ => .ok ""
  answer := fun _ => ""

/-- The request is executed for the agent that may not make it. -/
theorem not_alwaysIntersected : ¬AlwaysIntersected := by
  intro always
  have executed : (runMgpAgentAskLoop plainTexts insistentWorld "engine" .null [.null] "agent.b"
      "agent.a").1 =
      List.replicate 5 ⟨ruledState, "files", "read_file", safeArgs "agent.b" pathlessCall⟩ := rfl
  have intersection := (always plainTexts).1 insistentWorld "engine" .null [.null] "agent.b"
    "agent.a" _ (by rw [executed]; exact List.mem_cons_self)
  rcases intersection.firstRules with ⟨rules, read, satisfied⟩
  have ruled : ruledState.database.argumentRulesForCall "agent.a" "files" "read_file" =
      .ok [⟨"files", some "read_file", [], ["path"]⟩] := rfl
  rw [ruled] at read
  cases read
  rcases (satisfied _ List.mem_cons_self).required "path" List.mem_cons_self with
    ⟨actual, present, _⟩
  have missing : (safeArgs "agent.b" pathlessCall).get "path" = none := by decide
  rw [missing] at present
  contradiction

end ClotoCore.Mcp
