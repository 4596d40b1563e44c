import ClotoCore.Json.Value
import ClotoCore.Sequence.Numbered
import ClotoCore.Transition.Run
import Mathlib.Algebra.Group.Nat.Defs

/-!
# Callbacks of MCP servers

A server asks for an answer under an id of its choice, and the requests of all servers
share one map.  An answer is marked as given, sent, and taken back when the send fails;
meanwhile the server can ask again and gets a copy of it.  Answered callbacks are
forgotten by their age, which is counted from the request.
-/

namespace ClotoCore.Mcp.Callbacks

open ClotoCore.Sequence ClotoCore.Transition

/-- `PendingCallback`, with the time in nanoseconds. -/
structure PendingCallback where
  serverId : String
  callbackType : String
  message : String
  options : Option (List String)
  createdAt : Nat
  responded : Bool
  recordedResponse : Option String

/-- A callback with the number of its request and that of the answer given last. -/
structure Record extends PendingCallback where
  request : Nat
  answer : Nat

/-- A callback without its answer. -/
def Record.reopened (record : Record) : Record :=
  { record with responded := false, recordedResponse := none }

/-- A request that was registered. -/
structure Request where
  serverId : String
  callbackId : String
  registeredAt : Nat
  deriving DecidableEq

/-- What became of the send of an answer. -/
inductive Outcome where
  | sending
  | acknowledged
  | takenBack
  deriving DecidableEq

/-- An answer that was marked as given, and the number of its own sending. -/
structure Answer where
  request : Nat
  copy : Nat
  serverId : String
  callbackId : String
  response : String
  answeredAt : Nat
  outcome : Outcome

/-- The answer has not been taken back. -/
def Answer.Stands (answer : Answer) : Prop :=
  answer.outcome ≠ .takenBack

instance (answer : Answer) : Decidable answer.Stands :=
  inferInstanceAs <| Decidable <| answer.outcome ≠ .takenBack

/-- One sending of an answer.  `arrived` says that the server has taken it, which the
kernel need not learn. -/
structure Copy where
  answer : Nat
  request : Nat
  serverId : String
  callbackId : String
  response : String
  arrived : Bool

/-- The map of callbacks and the answers under way.  The numbers of requests and answers
are read by no step but to tell the sendings apart. -/
structure State where
  now : Nat
  callbacks : String → Option Record
  requests : List Request
  answers : List Answer
  copies : List Copy

/-- No callbacks yet. -/
def State.init : State where
  now := 0
  callbacks := fun _ => none
  requests := []
  answers := []
  copies := []

/-- `CallbackHandleResult` -/
inductive CallbackHandleResult where
  | newCallback (callbackId serverId callbackType message : String)
      (options : Option (List String)) (metadata : Option Json.Value)
  | duplicateWithResponse (serverId callbackId response : String)
  | duplicateNoResponse

/-- The age at which the health check drops an answered callback: five minutes. -/
def callbackTimeout : Nat := 5 * 60 * 10 ^ 9

/-- `UNRESPONDED_CALLBACK_TTL` -/
def unrespondedCallbackTtl : Nat := 60 * 60 * 10 ^ 9

/-- A notification, a call of `respond_to_callback` or one of its ends, the arrival of a
copy, or a cleanup. -/
inductive Label where
  | wait (elapsed : Nat)
  | request (serverId : String) (params : Json.Value)
  | respond (args : Json.Value)
  | arrive (copy : Nat)
  | acknowledge (answer : Nat)
  | fail (answer : Nat)
  | cleanup

/-- The text under a name of an object. -/
def textOf (value : Json.Value) (name : String) : Option String :=
  (value.get name).bind Json.Value.asStr

namespace State

/-- Write the record of an id. -/
def setRecord (state : State) (id : String) (record : Record) : State :=
  { state with
    callbacks := fun other => if other = id then some record else state.callbacks other }

/-- The callback that `register_callback` inserts. -/
def newRecord (state : State) (serverId callbackType message : String)
    (options : Option (List String)) : Record where
  serverId := serverId
  callbackType := callbackType
  message := message
  options := options
  createdAt := state.now
  responded := false
  recordedResponse := none
  request := state.requests.length
  answer := 0

/-- Insert a new callback. -/
def register (state : State) (callbackId : String) (record : Record) : State :=
  { state.setRecord callbackId record with
    requests := state.requests ++ [⟨record.serverId, callbackId, state.now⟩] }

/-- `register_callback`, and whether the id is new. -/
def registerCallback (state : State) (callbackId serverId callbackType message : String)
    (options : Option (List String)) : State × Bool :=
  match state.callbacks callbackId with
  | some _ => (state, false)
  | none =>
      (state.register callbackId (state.newRecord serverId callbackType message options), true)

/-- `get_recorded_response` -/
def getRecordedResponse (state : State) (callbackId : String) : Option (String × String) :=
  (state.callbacks callbackId).bind fun record =>
    if record.responded = false then none
    else record.recordedResponse.map fun response => (record.serverId, response)

/-- `handle_callback_request` -/
def handleCallbackRequest (state : State) (serverId : String) (params : Json.Value) :
    State × CallbackHandleResult :=
  match textOf params "callback_id" with
  | none => (state, .duplicateNoResponse)
  | some callbackId =>
      let callbackType := (textOf params "type").getD "generic"
      let message := (textOf params "message").getD ""
      let options := ((params.get "options").bind Json.Value.asArray).map
        (List.filterMap Json.Value.asStr)
      match state.registerCallback callbackId serverId callbackType message options with
      | (registered, true) =>
          (registered, .newCallback callbackId serverId callbackType message options
            (params.get "metadata"))
      | (same, false) =>
          match same.getRecordedResponse callbackId with
          | some (owner, response) => (same, .duplicateWithResponse owner callbackId response)
          | none => (same, .duplicateNoResponse)

/-- The notification listener: a recorded answer is sent once more. -/
def listen (state : State) (serverId : String) (params : Json.Value) : State :=
  match state.handleCallbackRequest serverId params with
  | (same, .duplicateWithResponse owner callbackId response) =>
      match same.callbacks callbackId with
      | some record =>
          { same with
            copies := same.copies ++
              [⟨record.answer, record.request, owner, callbackId, response, false⟩] }
      | none => same
  | (next, _) => next

/-- A callback with its answer. -/
def marked (state : State) (record : Record) (response : String) : Record :=
  { record with
    responded := true
    recordedResponse := some response
    answer := state.answers.length }

/-- `resolve_callback`: the callback that is marked, with the server to answer. -/
def resolveCallback (state : State) (callbackId response : String) : Option (Record × State) :=
  (state.callbacks callbackId).bind fun record =>
    if record.responded then none
    else some (record, state.setRecord callbackId (state.marked record response))

/-- An answer to a callback under way. -/
def give (state : State) (callbackId response : String) (record : Record) : State :=
  { state with
    answers := state.answers ++
      [⟨record.request, state.copies.length, record.serverId, callbackId, response, state.now,
        .sending⟩]
    copies := state.copies ++
      [⟨state.answers.length, record.request, record.serverId, callbackId, response, false⟩] }

/-- `reopen_callback` -/
def reopenCallback (state : State) (callbackId : String) : State :=
  match state.callbacks callbackId with
  | some record => state.setRecord callbackId record.reopened
  | none => state

/-- `respond_to_callback`, until the answer is under way. -/
def respondToCallback (state : State) (args : Json.Value) : Except String State :=
  match textOf args "callback_id", textOf args "response" with
  | none, _ => .error "Missing required parameter: callback_id"
  | some _, none => .error "Missing required parameter: response"
  | some callbackId, some response =>
      match state.resolveCallback callbackId response with
      | some (record, resolved) => .ok (resolved.give callbackId response record)
      | none =>
          if (state.getRecordedResponse callbackId).isSome then
            .error ("Callback '" ++ callbackId ++ "' has already been answered")
          else .error ("Callback '" ++ callbackId ++ "' not found")

/-- The end of the send of an answer. -/
def conclude (state : State) (n : Nat) (answer : Answer) (outcome : Outcome) : State :=
  { state with answers := state.answers.set n { answer with outcome := outcome } }

/-- `cleanup_stale_callbacks` keeps a callback. -/
def retains (now : Nat) (record : Record) : Bool :=
  let age := now - record.createdAt
  if record.responded then decide (age < callbackTimeout)
  else decide (age < unrespondedCallbackTtl)

/-- `cleanup_stale_callbacks` -/
def cleanupStaleCallbacks (state : State) : State :=
  { state with callbacks := fun id => (state.callbacks id).filter (retains state.now) }

end State

/-- One step.  A send that succeeds has arrived; one that fails may have. -/
def step : Action State Label
  | state, .wait elapsed => some { state with now := state.now + elapsed }
  | state, .request serverId params => some (state.listen serverId params)
  | state, .respond args =>
      match state.respondToCallback args with
      | .ok next => some next
      | .error _ => some state
  | state, .arrive n =>
      match state.copies[n]? with
      | some copy =>
          if copy.arrived then none
          else some { state with copies := state.copies.set n { copy with arrived := true } }
      | none => none
  | state, .acknowledge n =>
      match state.answers[n]? with
      | some answer =>
          if answer.outcome = .sending ∧
              (state.copies[answer.copy]?.any fun copy => copy.arrived) = true then
            some (state.conclude n answer .acknowledged)
          else none
      | none => none
  | state, .fail n =>
      match state.answers[n]? with
      | some answer =>
          if answer.outcome = .sending then
            some ((state.conclude n answer .takenBack).reopenCallback answer.callbackId)
          else none
      | none => none
  | state, .cleanup => some state.cleanupStaleCallbacks

/-- No two answers to one request arrive, every answer goes to the server that asked, a
request leaves the callbacks that are there as they are, and one that repeats an answered
one in time is told so and not registered anew. -/
structure AnsweredOnce (state : State) : Prop where
  once : ∀ first ∈ state.copies, ∀ second ∈ state.copies, first.arrived = true →
    second.arrived = true → first.request = second.request → first.response = second.response
  asker : ∀ copy ∈ state.copies, ∃ time,
    state.requests[copy.request]? = some ⟨copy.serverId, copy.callbackId, time⟩
  untouched : ∀ serverId params id record, state.callbacks id = some record →
    (state.listen serverId params).callbacks id = some record
  recognised : ∀ answer ∈ state.answers, answer.Stands →
    state.now < answer.answeredAt + callbackTimeout →
      ∀ serverId params, textOf params "callback_id" = some answer.callbackId →
        (state.handleCallbackRequest serverId params).2 =
          .duplicateWithResponse answer.serverId answer.callbackId answer.response
  apart : ∀ answer ∈ state.answers, answer.Stands → ∀ (n : Nat) request,
    state.requests[n]? = some request → answer.request < n →
      request.callbackId = answer.callbackId →
        answer.answeredAt + callbackTimeout ≤ request.registeredAt

/-- An answer is taken back only if it has not arrived, and while its id belongs to the
same request, or to one without an answer; a copy arrives only while its answer stands; a
cleanup drops no callback whose answer was given less than the timeout ago. -/
def Undisputed : State → Label → Prop
  | state, .arrive n => ∀ copy ∈ state.copies[n]?, ∀ answer ∈ state.answers[copy.answer]?,
      answer.Stands
  | state, .fail n => ∀ answer ∈ state.answers[n]?,
      (∀ copy ∈ state.copies, copy.answer = n → copy.arrived = false) ∧
      ∀ record ∈ state.callbacks answer.callbackId,
        record.request = answer.request ∨ record.responded = false
  | state, .cleanup => ∀ answer ∈ state.answers, answer.Stands →
      ∀ record ∈ state.callbacks answer.callbackId, record.request = answer.request →
        State.retains state.now record = false → answer.answeredAt + callbackTimeout ≤ state.now
  | _, _ => True

instance (state : State) : ∀ label, Decidable (Undisputed state label)
  | .arrive n => inferInstanceAs <| Decidable <|
      ∀ copy ∈ state.copies[n]?, ∀ answer ∈ state.answers[copy.answer]?, answer.Stands
  | .fail n => inferInstanceAs <| Decidable <|
      ∀ answer ∈ state.answers[n]?,
        (∀ copy ∈ state.copies, copy.answer = n → copy.arrived = false) ∧
        ∀ record ∈ state.callbacks answer.callbackId,
          record.request = answer.request ∨ record.responded = false
  | .cleanup => inferInstanceAs <| Decidable <|
      ∀ answer ∈ state.answers, answer.Stands →
        ∀ record ∈ state.callbacks answer.callbackId, record.request = answer.request →
          State.retains state.now record = false →
            answer.answeredAt + callbackTimeout ≤ state.now
  | .wait _ | .request _ _ | .respond _ | .acknowledge _ => isTrue trivial

variable {state next : State} {label : Label} {record : Record} {answer : Answer} {copy : Copy}
  {id serverId callbackId response : String} {params args : Json.Value} {n : Nat}

/-- A request of a number came from a server under an id. -/
def State.Asked (state : State) (n : Nat) (serverId callbackId : String) : Prop :=
  ∃ time, state.requests[n]? = some ⟨serverId, callbackId, time⟩

/-- The answer of a number stands in the record of its request. -/
structure Recorded (n : Nat) (answer : Answer) (record : Record) : Prop where
  responded : record.responded = true
  response : record.recordedResponse = some answer.response
  number : record.answer = n

/-- A record belongs to the last request of its id, a standing answer is in the record of
its request or has been forgotten in time, and no request has two standing answers. -/
structure Carried (state : State) : Prop where
  owner : ∀ id record, state.callbacks id = some record →
    state.Asked record.request record.serverId id
  latest : ∀ id record, state.callbacks id = some record → ∀ (n : Nat) request,
    state.requests[n]? = some request → request.callbackId = id → n ≤ record.request
  claimed : ∀ id record, state.callbacks id = some record → record.responded = true →
    ∃ answer, state.answers[record.answer]? = some answer ∧ answer.request = record.request ∧
      record.recordedResponse = some answer.response
  asked : ∀ answer ∈ state.answers, state.Asked answer.request answer.serverId answer.callbackId
  sent : ∀ copy ∈ state.copies, ∃ answer, state.answers[copy.answer]? = some answer ∧
    answer.request = copy.request ∧ answer.serverId = copy.serverId ∧
      answer.callbackId = copy.callbackId ∧ answer.response = copy.response
  arrived : ∀ copy ∈ state.copies, copy.arrived = true → ∀ answer,
    state.answers[copy.answer]? = some answer → answer.Stands
  unique : ∀ (m n : Nat) first second, state.answers[m]? = some first →
    state.answers[n]? = some second → first.Stands → second.Stands →
      first.request = second.request → m = n
  recorded : ∀ (n : Nat) answer, state.answers[n]? = some answer → answer.Stands → ∀ record,
    state.callbacks answer.callbackId = some record → record.request = answer.request →
      Recorded n answer record
  forgotten : ∀ answer ∈ state.answers, answer.Stands →
    (∀ record, state.callbacks answer.callbackId = some record →
      record.request ≠ answer.request) → answer.answeredAt + callbackTimeout ≤ state.now
  apart : ∀ answer ∈ state.answers, answer.Stands → ∀ (n : Nat) request,
    state.requests[n]? = some request → answer.request < n →
      request.callbackId = answer.callbackId →
        answer.answeredAt + callbackTimeout ≤ request.registeredAt

theorem carried_init : Carried .init := by
  constructor <;> simp [State.init]

/-! ## What the invariant says of a state -/

theorem State.Asked.unique {first second firstId secondId : String}
    (one : state.Asked n first firstId) (other : state.Asked n second secondId) :
    first = second ∧ firstId = secondId := by
  rcases one with ⟨time, here⟩
  rcases other with ⟨later, there⟩
  rw [here] at there
  cases there
  exact ⟨rfl, rfl⟩

theorem handleCallbackRequest_of_recorded {id response : String}
    (named : textOf params "callback_id" = some id) (found : state.callbacks id = some record)
    (responded : record.responded = true) (recorded : record.recordedResponse = some response) :
    state.handleCallbackRequest serverId params =
      (state, .duplicateWithResponse record.serverId id response) := by
  simp [State.handleCallbackRequest, named, State.registerCallback, found,
    State.getRecordedResponse, responded, recorded]

/-- A request registers its id, has the recorded answer sent again, or changes nothing. -/
theorem listen_cases (state : State) (serverId : String) (params : Json.Value) :
    (∃ id callbackType message options, state.callbacks id = none ∧
      state.listen serverId params =
        state.register id (state.newRecord serverId callbackType message options)) ∨
    (∃ id record response, state.callbacks id = some record ∧ record.responded = true ∧
      record.recordedResponse = some response ∧
      state.listen serverId params =
        { state with
          copies := state.copies ++
            [⟨record.answer, record.request, record.serverId, id, response, false⟩] }) ∨
    state.listen serverId params = state := by
  cases named : textOf params "callback_id" with
  | none =>
      right; right
      simp [State.listen, State.handleCallbackRequest, named]
  | some id =>
      cases found : state.callbacks id with
      | none =>
          left
          refine ⟨id, (textOf params "type").getD "generic", (textOf params "message").getD "",
            ((params.get "options").bind Json.Value.asArray).map
              (List.filterMap Json.Value.asStr), found, ?_⟩
          simp [State.listen, State.handleCallbackRequest, named, State.registerCallback, found]
      | some record =>
          right
          cases responded : record.responded with
          | false =>
              right
              simp [State.listen, State.handleCallbackRequest, named, State.registerCallback,
                found, State.getRecordedResponse, responded]
          | true =>
              cases recorded : record.recordedResponse with
              | none =>
                  right
                  simp [State.listen, State.handleCallbackRequest, named, State.registerCallback,
                    found, State.getRecordedResponse, responded, recorded]
              | some response =>
                  left
                  refine ⟨id, record, response, found, responded, recorded, ?_⟩
                  simp [State.listen, handleCallbackRequest_of_recorded named found responded
                    recorded, found]

theorem listen_callbacks (found : state.callbacks id = some record) :
    (state.listen serverId params).callbacks id = some record := by
  rcases listen_cases state serverId params with
    ⟨other, _, _, _, absent, listened⟩ | ⟨_, _, _, -, -, -, listened⟩ | listened
  · have apart : id ≠ other := by
      rintro rfl
      rw [absent] at found
      cases found
    rw [listened]
    simpa [State.register, State.setRecord, apart] using found
  · rw [listened]
    exact found
  · rw [listened]
    exact found

/-- A standing answer that is not forgotten is in the record of its request. -/
theorem Carried.exists_record (carried : Carried state) (here : state.answers[n]? = some answer)
    (stands : answer.Stands) (inTime : state.now < answer.answeredAt + callbackTimeout) :
    ∃ record, state.callbacks answer.callbackId = some record ∧ record.request = answer.request ∧
      Recorded n answer record := by
  have mem := List.mem_of_getElem? here
  by_cases kept : ∃ record, state.callbacks answer.callbackId = some record ∧
      record.request = answer.request
  · rcases kept with ⟨record, found, same⟩
    exact ⟨record, found, same, carried.recorded n answer here stands record found same⟩
  · have gone := carried.forgotten answer mem stands fun record found same =>
      kept ⟨record, found, same⟩
    omega

theorem Carried.answeredOnce (carried : Carried state) : AnsweredOnce state where
  once := by
    intro first firstMem second secondMem firstArrived secondArrived same
    rcases carried.sent first firstMem with ⟨one, oneHere, oneRequest, -, -, oneResponse⟩
    rcases carried.sent second secondMem with ⟨two, twoHere, twoRequest, -, -, twoResponse⟩
    have sameRequest : one.request = two.request := by
      rw [oneRequest, twoRequest, same]
    have sameAnswer := carried.unique _ _ one two oneHere twoHere
      (carried.arrived first firstMem firstArrived one oneHere)
      (carried.arrived second secondMem secondArrived two twoHere) sameRequest
    rw [sameAnswer, twoHere] at oneHere
    cases oneHere
    rw [← oneResponse, twoResponse]
  asker := by
    intro copy mem
    rcases carried.sent copy mem with ⟨answer, here, request, server, callback, -⟩
    rw [← request, ← server, ← callback]
    exact carried.asked answer (List.mem_of_getElem? here)
  untouched := by
    intro serverId params id record found
    exact listen_callbacks found
  recognised := by
    intro answer mem stands inTime serverId params named
    rcases List.mem_iff_getElem?.mp mem with ⟨n, here⟩
    rcases carried.exists_record here stands inTime with ⟨record, found, same, recorded⟩
    have asked := carried.asked answer mem
    rw [← same] at asked
    have sameServer := ((carried.owner _ record found).unique asked).1
    rw [handleCallbackRequest_of_recorded named found recorded.responded recorded.response,
      sameServer]
  apart := carried.apart

/-! ## Requests -/

theorem setRecord_cases {other : String} {found : Record}
    (there : (state.setRecord id record).callbacks other = some found) :
    other = id ∧ found = record ∨ other ≠ id ∧ state.callbacks other = some found := by
  simp only [State.setRecord] at there
  split at there
  · next same =>
    cases there
    exact Or.inl ⟨same, rfl⟩
  · next apart => exact Or.inr ⟨apart, there⟩

theorem setRecord_self : (state.setRecord id record).callbacks id = some record := by
  simp [State.setRecord]

theorem State.Asked.lt (asked : state.Asked n serverId callbackId) : n < state.requests.length := by
  rcases asked with ⟨time, here⟩
  exact (List.getElem?_eq_some_iff.mp here).1

theorem State.Asked.register (asked : state.Asked n serverId callbackId) :
    (state.register id record).Asked n serverId callbackId := by
  rcases asked with ⟨time, here⟩
  exact ⟨time, getElem?_concat_of_some here⟩

theorem Carried.register (carried : Carried state) (absent : state.callbacks id = none)
    (number : record.request = state.requests.length) (pending : record.responded = false) :
    Carried (state.register id record) := by
  have gone : ∀ answer ∈ state.answers, answer.Stands → answer.callbackId = id →
      answer.answeredAt + callbackTimeout ≤ state.now := by
    intro answer mem stands same
    apply carried.forgotten answer mem stands
    intro record found
    rw [same, absent] at found
    cases found
  constructor
  · intro other found there
    rcases setRecord_cases there with ⟨rfl, rfl⟩ | ⟨-, old⟩
    · refine ⟨state.now, ?_⟩
      rw [number]
      exact List.getElem?_concat_length
    · exact (carried.owner other found old).register
  · intro other found there n request requested same
    rcases setRecord_cases there with ⟨rfl, rfl⟩ | ⟨apart, old⟩
    · rcases getElem?_concat_cases requested with earlier | ⟨rfl, -⟩
      · have before := (List.getElem?_eq_some_iff.mp earlier).1
        omega
      · omega
    · rcases getElem?_concat_cases requested with earlier | ⟨-, rfl⟩
      · exact carried.latest other found old n request earlier same
      · exact absurd same.symm apart
  · intro other found there responded
    rcases setRecord_cases there with ⟨rfl, rfl⟩ | ⟨-, old⟩
    · rw [pending] at responded
      cases responded
    · exact carried.claimed other found old responded
  · exact fun answer mem => (carried.asked answer mem).register
  · exact carried.sent
  · exact carried.arrived
  · exact carried.unique
  · intro n answer here stands found there same
    rcases setRecord_cases there with ⟨-, rfl⟩ | ⟨-, old⟩
    · have before := (carried.asked answer (List.mem_of_getElem? here)).lt
      omega
    · exact carried.recorded n answer here stands found old same
  · intro answer mem stands apart
    by_cases same : answer.callbackId = id
    · exact gone answer mem stands same
    · apply carried.forgotten answer mem stands
      intro found old
      apply apart found
      simpa [State.register, State.setRecord, same] using old
  · intro answer mem stands n request requested after same
    rcases getElem?_concat_cases requested with earlier | ⟨-, rfl⟩
    · exact carried.apart answer mem stands n request earlier after same
    · exact gone answer mem stands same.symm

theorem Carried.resend (carried : Carried state) (found : state.callbacks id = some record)
    (responded : record.responded = true) (recorded : record.recordedResponse = some response) :
    Carried
      { state with
        copies := state.copies ++
          [⟨record.answer, record.request, record.serverId, id, response, false⟩] } := by
  refine { carried with sent := ?_, arrived := ?_ }
  · intro copy mem
    rcases List.mem_append.mp mem with old | this
    · exact carried.sent copy old
    · cases List.mem_singleton.mp this
      rcases carried.claimed id record found responded with ⟨answer, here, same, given⟩
      have asked := carried.asked answer (List.mem_of_getElem? here)
      rw [same] at asked
      have sameNames := asked.unique (carried.owner id record found)
      rw [recorded] at given
      exact ⟨answer, here, same, sameNames.1, sameNames.2, (Option.some.inj given).symm⟩
  · intro copy mem arrived
    rcases List.mem_append.mp mem with old | this
    · exact carried.arrived copy old arrived
    · cases List.mem_singleton.mp this
      cases arrived

theorem Carried.listen (carried : Carried state) (serverId : String) (params : Json.Value) :
    Carried (state.listen serverId params) := by
  rcases listen_cases state serverId params with
    ⟨id, _, _, _, absent, listened⟩ | ⟨id, record, response, found, responded, recorded, listened⟩ |
    listened
  · rw [listened]
    exact carried.register absent rfl rfl
  · rw [listened]
    exact carried.resend found responded recorded
  · rw [listened]
    exact carried

/-! ## Records that change -/

section Changed

variable {changed : Record} (found : state.callbacks id = some record)
  (sameRequest : changed.request = record.request)

include found sameRequest

theorem Carried.owner_setRecord (carried : Carried state)
    (sameServer : changed.serverId = record.serverId) (other : String) (there : Record)
    (here : (state.setRecord id changed).callbacks other = some there) :
    state.Asked there.request there.serverId other := by
  rcases setRecord_cases here with ⟨rfl, rfl⟩ | ⟨-, old⟩
  · rw [sameRequest, sameServer]
    exact carried.owner other record found
  · exact carried.owner other there old

theorem Carried.latest_setRecord (carried : Carried state) (other : String) (there : Record)
    (here : (state.setRecord id changed).callbacks other = some there) (n : Nat) (request : Request)
    (requested : state.requests[n]? = some request) (same : request.callbackId = other) :
    n ≤ there.request := by
  rcases setRecord_cases here with ⟨rfl, rfl⟩ | ⟨-, old⟩
  · rw [sameRequest]
    exact carried.latest other record found n request requested same
  · exact carried.latest other there old n request requested same

end Changed

/-- A request that no record is of when one has changed had no record before. -/
theorem apart_of_setRecord {other : String} {k : Nat} (changed : Record)
    (found : state.callbacks id = some record) (sameRequest : changed.request = record.request)
    (apart : ∀ there, (state.setRecord id changed).callbacks other = some there → there.request ≠ k)
    (there : Record) (here : state.callbacks other = some there) : there.request ≠ k := by
  by_cases same : other = id
  · subst same
    rw [found] at here
    cases here
    rw [← sameRequest]
    exact apart changed setRecord_self
  · apply apart there
    simpa [State.setRecord, same] using here

/-! ## Answers -/

/-- An answer is given to a pending callback, which is marked. -/
theorem respondToCallback_cases (given : state.respondToCallback args = .ok next) :
    ∃ id response record, state.callbacks id = some record ∧ record.responded = false ∧
      next = (state.setRecord id (state.marked record response)).give id response record := by
  unfold State.respondToCallback at given
  split at given
  · cases given
  · cases given
  · next id response _ _ =>
    split at given
    · next record resolved resolvedEq =>
      cases given
      rcases Option.bind_eq_some_iff.mp resolvedEq with ⟨found, there, marked⟩
      split at marked
      · cases marked
      · next pending =>
        cases marked
        exact ⟨id, response, record, there, by simpa using pending, rfl⟩
    · split at given <;> cases given

/-- No answer stands to the request of a pending callback. -/
theorem Carried.not_answered (carried : Carried state) (found : state.callbacks id = some record)
    (pending : record.responded = false) (here : state.answers[n]? = some answer)
    (stands : answer.Stands) : answer.request ≠ record.request := by
  intro same
  have asked := carried.asked answer (List.mem_of_getElem? here)
  rw [same] at asked
  have sameId := (asked.unique (carried.owner id record found)).2
  rw [← sameId] at found
  have marked := (carried.recorded n answer here stands record found same.symm).responded
  rw [pending] at marked
  cases marked

theorem Carried.respond (carried : Carried state)
    (given : state.respondToCallback args = .ok next) : Carried next := by
  rcases respondToCallback_cases given with ⟨id, response, record, found, pending, rfl⟩
  have notAnswered : ∀ {n : Nat} {answer : Answer}, state.answers[n]? = some answer →
      answer.Stands → answer.request ≠ record.request := fun here stands =>
    carried.not_answered found pending here stands
  constructor
  · exact carried.owner_setRecord found rfl rfl
  · exact carried.latest_setRecord found rfl
  · intro other found' there responded
    rcases setRecord_cases there with ⟨rfl, rfl⟩ | ⟨-, old⟩
    · exact ⟨_, List.getElem?_concat_length, rfl, rfl⟩
    · rcases carried.claimed other found' old responded with ⟨answer, here, rest⟩
      exact ⟨answer, getElem?_concat_of_some here, rest⟩
  · intro answer mem
    rcases List.mem_append.mp mem with old | this
    · exact carried.asked answer old
    · cases List.mem_singleton.mp this
      exact carried.owner id record found
  · intro copy mem
    rcases List.mem_append.mp mem with old | this
    · rcases carried.sent copy old with ⟨answer, here, rest⟩
      exact ⟨answer, getElem?_concat_of_some here, rest⟩
    · cases List.mem_singleton.mp this
      exact ⟨_, List.getElem?_concat_length, rfl, rfl, rfl, rfl⟩
  · intro copy mem arrived answer here
    rcases List.mem_append.mp mem with old | this
    · rcases carried.sent copy old with ⟨earlier, before, -⟩
      have same := here.symm.trans (getElem?_concat_of_some before)
      cases same
      exact carried.arrived copy old arrived answer before
    · cases List.mem_singleton.mp this
      cases arrived
  · intro m n first second firstHere secondHere firstStands secondStands same
    rcases getElem?_concat_cases firstHere with firstOld | ⟨rfl, rfl⟩
    · rcases getElem?_concat_cases secondHere with secondOld | ⟨rfl, rfl⟩
      · exact carried.unique m n first second firstOld secondOld firstStands secondStands same
      · exact absurd same (notAnswered firstOld firstStands)
    · rcases getElem?_concat_cases secondHere with secondOld | ⟨rfl, rfl⟩
      · exact absurd same.symm (notAnswered secondOld secondStands)
      · rfl
  · intro n answer here stands found' there same
    rcases getElem?_concat_cases here with old | ⟨rfl, rfl⟩
    · rcases setRecord_cases there with ⟨-, rfl⟩ | ⟨-, there'⟩
      · exact absurd same.symm (notAnswered old stands)
      · exact carried.recorded n answer old stands found' there' same
    · rcases setRecord_cases there with ⟨-, rfl⟩ | ⟨apart, -⟩
      · exact ⟨rfl, rfl, rfl⟩
      · exact absurd rfl apart
  · intro answer mem stands apart
    rcases List.mem_append.mp mem with old | this
    · apply carried.forgotten answer old stands
      exact apart_of_setRecord (state.marked record response) found rfl apart
    · cases List.mem_singleton.mp this
      exact absurd rfl (apart (state.marked record response) setRecord_self)
  · intro answer mem stands n request requested after same
    rcases List.mem_append.mp mem with old | this
    · exact carried.apart answer old stands n request requested after same
    · cases List.mem_singleton.mp this
      have last := carried.latest id record found n request requested same
      change record.request < n at after
      omega

/-! ## The ends of a send -/

theorem Carried.arrive (carried : Carried state) (here : state.copies[n]? = some copy)
    (stands : ∀ answer ∈ state.answers[copy.answer]?, answer.Stands) :
    Carried { state with copies := state.copies.set n { copy with arrived := true } } := by
  refine { carried with sent := ?_, arrived := ?_ }
  · intro other mem
    rcases List.mem_or_eq_of_mem_set mem with old | rfl
    · exact carried.sent other old
    · exact carried.sent copy (List.mem_of_getElem? here)
  · intro other mem arrived
    rcases List.mem_or_eq_of_mem_set mem with old | rfl
    · exact carried.arrived other old arrived
    · exact stands

/-- An answer whose send has ended is the answer before, and stands only if that did. -/
theorem conclude_cases {m : Nat} {outcome : Outcome} {found : Answer}
    (here : state.answers[n]? = some answer) (sending : answer.outcome = .sending)
    (there : (state.conclude n answer outcome).answers[m]? = some found) :
    ∃ old, state.answers[m]? = some old ∧ found = { old with outcome := found.outcome } ∧
      (found.Stands → old.Stands) ∧ (m = n → found.outcome = outcome) := by
  rcases getElem?_set_cases there with ⟨rfl, rfl⟩ | ⟨other, old⟩
  · refine ⟨answer, here, rfl, ?_, fun _ => rfl⟩
    intro _
    rw [Answer.Stands, sending]
    decide
  · exact ⟨found, old, rfl, id, fun same => absurd same other⟩

/-- An answer is where it was when the send of one has ended. -/
theorem exists_conclude {m : Nat} {old : Answer} (outcome : Outcome)
    (here : state.answers[n]? = some answer) (there : state.answers[m]? = some old) :
    ∃ changed, (state.conclude n answer outcome).answers[m]? =
      some { old with outcome := changed } := by
  by_cases same : m = n
  · subst same
    rw [here] at there
    cases there
    rcases List.getElem?_eq_some_iff.mp here with ⟨within, -⟩
    exact ⟨outcome, List.getElem?_set_self within⟩
  · refine ⟨old.outcome, ?_⟩
    rw [State.conclude, List.getElem?_set_ne fun other => same other.symm]
    exact there

theorem Carried.conclude {outcome : Outcome} (carried : Carried state)
    (here : state.answers[n]? = some answer) (sending : answer.outcome = .sending)
    (unarrived : outcome = .takenBack → ∀ copy ∈ state.copies, copy.answer = n →
      copy.arrived = false) :
    Carried (state.conclude n answer outcome) := by
  have before : ∀ {found}, found ∈ (state.conclude n answer outcome).answers →
      ∃ old ∈ state.answers, found = { old with outcome := found.outcome } ∧
        (found.Stands → old.Stands) := by
    intro found mem
    rcases List.mem_iff_getElem?.mp mem with ⟨m, there⟩
    rcases conclude_cases here sending there with ⟨old, oldHere, same, standing, -⟩
    exact ⟨old, List.mem_of_getElem? oldHere, same, standing⟩
  constructor
  · exact carried.owner
  · exact carried.latest
  · intro id record found responded
    rcases carried.claimed id record found responded with ⟨old, oldHere, rest⟩
    rcases exists_conclude outcome here oldHere with ⟨changed, there⟩
    exact ⟨_, there, rest⟩
  · intro found mem
    rcases before mem with ⟨old, oldMem, same, -⟩
    rw [same]
    exact carried.asked old oldMem
  · intro copy mem
    rcases carried.sent copy mem with ⟨old, oldHere, rest⟩
    rcases exists_conclude outcome here oldHere with ⟨changed, there⟩
    exact ⟨_, there, rest⟩
  · intro copy mem arrived found there
    rcases getElem?_set_cases there with ⟨same, rfl⟩ | ⟨-, old⟩
    · intro taken
      rw [unarrived taken copy mem same] at arrived
      cases arrived
    · exact carried.arrived copy mem arrived found old
  · intro m k first second firstHere secondHere firstStands secondStands same
    rcases conclude_cases here sending firstHere with ⟨one, oneHere, oneEq, oneStands, -⟩
    rcases conclude_cases here sending secondHere with ⟨two, twoHere, twoEq, twoStands, -⟩
    rw [oneEq, twoEq] at same
    exact carried.unique m k one two oneHere twoHere (oneStands firstStands)
      (twoStands secondStands) same
  · intro m found there stands record recordHere same
    rcases conclude_cases here sending there with ⟨old, oldHere, oldEq, oldStands, -⟩
    rw [oldEq] at recordHere same
    rcases carried.recorded m old oldHere (oldStands stands) record recordHere same with
      ⟨responded, response, number⟩
    rw [oldEq]
    exact ⟨responded, response, number⟩
  · intro found mem stands apart
    rcases before mem with ⟨old, oldMem, oldEq, oldStands⟩
    rw [oldEq] at apart ⊢
    exact carried.forgotten old oldMem (oldStands stands) apart
  · intro found mem stands k request requested after same
    rcases before mem with ⟨old, oldMem, oldEq, oldStands⟩
    rw [oldEq] at after same ⊢
    exact carried.apart old oldMem (oldStands stands) k request requested after same

theorem Carried.reopenCallback (carried : Carried state)
    (unanswered : ∀ record, state.callbacks id = some record → ∀ answer ∈ state.answers,
      answer.Stands → answer.request ≠ record.request) :
    Carried (state.reopenCallback id) := by
  unfold State.reopenCallback
  split
  · next record found =>
    refine
      { carried with owner := ?_, latest := ?_, claimed := ?_, recorded := ?_, forgotten := ?_ }
    · exact carried.owner_setRecord found rfl rfl
    · exact carried.latest_setRecord found rfl
    · intro other found' there responded
      rcases setRecord_cases there with ⟨-, rfl⟩ | ⟨-, old⟩
      · cases responded
      · exact carried.claimed other found' old responded
    · intro n answer here stands found' there same
      rcases setRecord_cases there with ⟨-, rfl⟩ | ⟨-, old⟩
      · exact absurd same.symm (unanswered record found answer (List.mem_of_getElem? here) stands)
      · exact carried.recorded n answer here stands found' old same
    · intro answer mem stands apart
      apply carried.forgotten answer mem stands
      exact apart_of_setRecord record.reopened found rfl apart
  · exact carried

theorem Carried.fail (carried : Carried state) (here : state.answers[n]? = some answer)
    (sending : answer.outcome = .sending)
    (unarrived : ∀ copy ∈ state.copies, copy.answer = n → copy.arrived = false)
    (own : ∀ record ∈ state.callbacks answer.callbackId,
      record.request = answer.request ∨ record.responded = false) :
    Carried ((state.conclude n answer .takenBack).reopenCallback answer.callbackId) := by
  have concluded : Carried (state.conclude n answer .takenBack) :=
    carried.conclude here sending fun _ => unarrived
  apply concluded.reopenCallback
  intro record found other mem stands same
  rcases List.mem_iff_getElem?.mp mem with ⟨m, there⟩
  rcases conclude_cases here sending there with ⟨old, oldHere, oldEq, oldStands, last⟩
  have sending' : answer.Stands := by
    rw [Answer.Stands, sending]
    decide
  rw [oldEq] at same
  rcases own record found with ofRequest | pending
  · -- the record belongs to the answer that is taken back, and no other answer stands to it
    have sameAnswer := carried.unique m n old answer oldHere here (oldStands stands) sending'
      (same.trans ofRequest)
    exact stands (last sameAnswer)
  · exact carried.not_answered found pending oldHere (oldStands stands) same

/-! ## Cleanups -/

theorem Carried.cleanup (carried : Carried state) (timely : Undisputed state .cleanup) :
    Carried state.cleanupStaleCallbacks := by
  have before : ∀ {id record}, state.cleanupStaleCallbacks.callbacks id = some record →
      state.callbacks id = some record := by
    intro id record there
    exact (Option.filter_eq_some_iff.mp there).1
  refine { carried with owner := ?_, latest := ?_, claimed := ?_, recorded := ?_, forgotten := ?_ }
  · exact fun id record there => carried.owner id record (before there)
  · exact fun id record there => carried.latest id record (before there)
  · exact fun id record there => carried.claimed id record (before there)
  · exact fun n answer here stands record there =>
      carried.recorded n answer here stands record (before there)
  · intro answer mem stands apart
    by_cases kept : ∃ record, state.callbacks answer.callbackId = some record ∧
        record.request = answer.request
    · rcases kept with ⟨record, found, same⟩
      apply timely answer mem stands record found same
      cases retained : State.retains state.now record with
      | false => rfl
      | true =>
          exact absurd same (apart record (Option.filter_eq_some_iff.mpr ⟨found, retained⟩))
    · apply carried.forgotten answer mem stands
      intro record found same
      exact kept ⟨record, found, same⟩

/-! ## Every run -/

theorem Carried.wait (carried : Carried state) (elapsed : Nat) :
    Carried { state with now := state.now + elapsed } := by
  refine { carried with forgotten := ?_ }
  intro answer mem stands apart
  exact Nat.le_add_right_of_le (carried.forgotten answer mem stands apart)

theorem Carried.step (carried : Carried state) (undisputed : Undisputed state label)
    (stepEq : step state label = some next) : Carried next := by
  cases label with
  | wait elapsed =>
      cases stepEq
      exact carried.wait elapsed
  | request serverId params =>
      cases stepEq
      exact carried.listen serverId params
  | respond args =>
      simp only [Callbacks.step] at stepEq
      split at stepEq
      · next given =>
        cases stepEq
        exact carried.respond given
      · cases stepEq
        exact carried
  | arrive n =>
      simp only [Callbacks.step] at stepEq
      split at stepEq
      · next copy here =>
        split at stepEq
        · cases stepEq
        · cases stepEq
          exact carried.arrive here (undisputed copy here)
      · cases stepEq
  | acknowledge n =>
      simp only [Callbacks.step] at stepEq
      split at stepEq
      · next answer here =>
        split at stepEq
        · next concluded =>
          cases stepEq
          exact carried.conclude here concluded.1 (by simp)
        · cases stepEq
      · cases stepEq
  | fail n =>
      simp only [Callbacks.step] at stepEq
      split at stepEq
      · next answer here =>
        split at stepEq
        · next sending =>
          cases stepEq
          rcases undisputed answer here with ⟨unarrived, own⟩
          exact carried.fail here sending unarrived own
        · cases stepEq
      · cases stepEq
  | cleanup =>
      cases stepEq
      exact carried.cleanup undisputed

/-- In an undisputed run every callback is answered once, in every state. -/
theorem answeredOnce_of_undisputed {labels : List Label}
    (undisputed : Along step Undisputed .init labels) (count : Nat) {middle : State}
    (passed : run step .init (labels.take count) = some middle) : AnsweredOnce middle := by
  have carried := run_invariant_along Carried
    (fun _ _ _ carried meets stepEq => carried.step meets stepEq) carried_init
    (undisputed.take count) passed
  exact carried.answeredOnce

/-! ## An answer that arrives and is taken back -/

/-- A request under the id `cb-1`. -/
def question : Json.Value :=
  .object [("callback_id", .string "cb-1"), ("message", .string "Go on?")]

/-- An answer to it. -/
def answerOf (response : String) : Json.Value :=
  .object [("callback_id", .string "cb-1"), ("response", .string response)]

/-- A request is answered, repeated, and forgotten after five minutes. -/
def answeredRun : List Label :=
  [.request "bridge" question, .respond (answerOf "yes"), .arrive 0, .acknowledge 0,
    .request "bridge" question, .arrive 1, .wait callbackTimeout, .cleanup]

theorem answeredOnce_answeredRun :
    ∃ target, run step .init answeredRun = some target ∧ AnsweredOnce target := by
  have runs : (run step .init answeredRun).isSome = true := by
    decide +kernel
  have undisputed : Along step Undisputed .init answeredRun := by
    decide +kernel
  rcases Option.isSome_iff_exists.mp runs with ⟨target, ran⟩
  exact ⟨target, ran, answeredOnce_of_undisputed undisputed 8 ran⟩

/-- A repeated request has an answer sent again; the copy arrives, the first send fails,
and another answer is accepted. -/
theorem two_answers_to_one_request :
    ¬∀ labels target, run step .init labels = some target → AnsweredOnce target := by
  intro answered
  have twice : ∃ target ∈ run step .init
      [.request "bridge" question, .respond (answerOf "yes"), .request "bridge" question,
        .arrive 1, .fail 0, .respond (answerOf "no"), .arrive 2, .acknowledge 1],
      ∃ first ∈ target.copies, ∃ second ∈ target.copies, first.arrived = true ∧
        second.arrived = true ∧ first.request = second.request ∧
          first.response ≠ second.response := by
    decide +kernel
  rcases twice with ⟨target, ran, first, firstMem, second, secondMem, firstArrived, secondArrived,
    same, distinct⟩
  exact distinct ((answered _ target ran).once first firstMem second secondMem firstArrived
    secondArrived same)

end ClotoCore.Mcp.Callbacks
