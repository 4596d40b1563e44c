import ClotoCore.Json.Value
import ClotoCore.Transition.Run

/-!
# The event bus

The event processor takes one envelope at a time: it records the event, starts
an agent turn for a message to an agent, broadcasts, hands the event to every
plugin and then acts on it.  While it waits for the plugins other tasks go on:
the kernel injects events, agent turns emit their own, permissions are revoked
and the history is trimmed.

A label is one such step.  The envelopes on their way to the processor are a bag,
since every send is a task of its own, so a run is any order of arrival.
-/

namespace ClotoCore.Events

open ClotoCore.Transition

/-- `ClotoId`: a 128-bit identifier. -/
abbrev ClotoId := BitVec 128

/-- `Permission`. -/
inductive Permission where
  | visionRead
  | inputControl
  | fileRead
  | fileWrite
  | networkAccess
  | processExecution
  | memoryRead
  | memoryWrite
  | adminAccess
  deriving DecidableEq

/-- The names under which `serde_json` reads a `Permission`. -/
def Permission.parse : String → Option Permission
  | "VisionRead" => some .visionRead
  | "InputControl" => some .inputControl
  | "FileRead" => some .fileRead
  | "FileWrite" => some .fileWrite
  | "NetworkAccess" => some .networkAccess
  | "ProcessExecution" => some .processExecution
  | "MemoryRead" => some .memoryRead
  | "MemoryWrite" => some .memoryWrite
  | "AdminAccess" => some .adminAccess
  | _ => none

/-- `HandAction`. -/
inductive HandAction where
  | mouseMove (x y : Int)
  | mouseClick (button : String)
  | keyPress (key : String)
  | wait (ms : Nat)
  | captureScreen
  | clickElement (label : String)

/-- `MessageSource`. -/
inductive MessageSource where
  | user (id name : String)
  | agent (id : String)
  | system

/-- `ClotoMessage`. -/
structure ClotoMessage where
  id : String
  source : MessageSource
  targetAgent : Option String
  content : String
  metadata : List (String × String)

/-- `ClotoEventData`.  `other` stands for the variants that no arm of the
processor acts on. -/
inductive ClotoEventData where
  | messageReceived (message : ClotoMessage)
  | actionRequested (requester : ClotoId) (action : HandAction)
  | thoughtResponse (agentId engineId content sourceMessageId : String) (autoSpoken : Bool)
  | permissionGranted (pluginId permission : String)
  | mcpCallbackRequested (callbackId serverId callbackType message : String)
      (metadata : Option Json.Value)
  | externalAction (actionId source targetAgentId targetAgentName prompt senderName
      engineId status callbackId : String)
  | other (name : String)

/-- `ClotoEvent`. -/
structure ClotoEvent where
  traceId : ClotoId
  data : ClotoEventData

/-- `EnvelopedEvent`: no issuer stands for the kernel. -/
structure EnvelopedEvent where
  event : ClotoEvent
  issuer : Option ClotoId
  correlationId : Option ClotoId
  depth : UInt8

/-- `EnvelopedEvent::system`. -/
def EnvelopedEvent.system (event : ClotoEvent) : EnvelopedEvent where
  event := event
  issuer := none
  correlationId := none
  depth := 0

/-- An envelope with the depths of the envelopes it derives from, nearest first.
No step reads the ancestry. -/
structure Item where
  envelope : EnvelopedEvent
  ancestry : List UInt8

/-- The ancestry of what derives from `item`. -/
def Item.lineage (item : Item) : List UInt8 :=
  item.envelope.depth :: item.ancestry

/-- `SequencedEvent`. -/
structure SequencedEvent where
  seqId : Nat
  event : ClotoEvent

/-- What the kernel is set up with.  `fromName` is `ClotoId::from_name`; `admits`
decides the rate limit from the earlier checks and the time; `jsonText` is
`serde_json::to_string`. -/
structure Config where
  plugins : List String
  maxEventDepth : UInt8
  maxHistorySize : Nat
  fromName : String → ClotoId
  admits : List (ClotoId × Nat) → ClotoId → Nat → Bool
  jsonText : Json.Value → String

/-- How far the processor has come with an envelope. -/
inductive Stage where
  | recorded
  | dispatched
  deriving DecidableEq

/-- The envelope in the processor's hands. -/
structure Processing where
  item : Item
  seqEvent : SequencedEvent
  stage : Stage

/-- An agent turn that a message started. -/
structure Turn where
  agentId : String
  lineage : List UInt8

/-- What the processor did, by the sequence id of the event. -/
inductive Effect where
  | stored (seqId : Nat)
  | broadcast (seqId : Nat)
  | delivered (plugin : String) (seqId : Nat) (depth : UInt8)
  | refused (seqId : Nat)
  | authorized (seqId : Nat)
  deriving DecidableEq

/-- The event that an effect is about. -/
def Effect.seqId : Effect → Nat
  | .stored seqId | .broadcast seqId | .delivered _ seqId _ | .refused seqId
  | .authorized seqId => seqId

/-- The processor, the registry and the tasks around them.  `effects` and `sent`
record what happened; no step reads them. -/
structure State where
  pending : List Item
  current : Option Processing
  permissions : ClotoId → List Permission
  history : List SequencedEvent
  nextSeq : Nat
  rateChecks : List (ClotoId × Nat)
  turns : List Turn
  effects : List Effect
  sent : List Item

/-- What the arms obtain from outside: the time, a fresh message id, and the
agent that the database names for an external message. -/
structure Resolution where
  now : Nat
  messageId : String
  targetAgentId : String
  agentName : String
  engineId : String

/-- One step of the processor or of a task around it. -/
inductive Label where
  | inject (event : ClotoEvent)
  | receive (index : Nat)
  | dispatch (replies : List (String × ClotoEventData))
  | settle (resolution : Resolution)
  | handlerEmit (turn : Nat) (event : ClotoEvent)
  | turnEnds (turn : Nat)
  | revoke (pluginId : String) (permission : Permission)
  | cleanup (count : Nat)

/-- An event is stored when the history has room for it. -/
def storeEffects (config : Config) (seqId : Nat) : List Effect :=
  if config.maxHistorySize = 0 then [] else [.stored seqId]

namespace State

/-- Put an envelope on its way to the processor. -/
def send (state : State) (item : Item) : State :=
  { state with pending := state.pending ++ [item], sent := state.sent ++ [item] }

/-- Items are sent, and wait for the loop. -/
def sendAll (state : State) (items : List Item) : State :=
  { state with pending := state.pending ++ items, sent := state.sent ++ items }

/-- Effects are written down. -/
def log (state : State) (effects : List Effect) : State :=
  { state with effects := state.effects ++ effects }

/-- `record_event`: append and drop the oldest beyond the capacity. -/
def recordEvent (config : Config) (state : State) (seqEvent : SequencedEvent) : State :=
  let history := state.history ++ [seqEvent]
  { state with
    history := history.drop (history.length - config.maxHistorySize)
    effects := state.effects ++ storeEffects config seqEvent.seqId }

/-- `update_effective_permissions`. -/
def updateEffectivePermissions (state : State) (id : ClotoId) (permission : Permission) : State :=
  { state with
    permissions := fun other =>
      if other = id ∧ permission ∉ state.permissions id then state.permissions id ++ [permission]
      else state.permissions other }

/-- `authorize`. -/
def authorize (state : State) (requester : ClotoId) (required : Permission) : Bool :=
  (state.permissions requester).contains required

end State

/-- The agent whose turn a message starts, when it comes from a user or from the
system. -/
def turnAgent (message : ClotoMessage) : Option String :=
  match message.source with
  | .agent _ => none
  | .user _ _ | .system =>
      some <| (message.targetAgent.orElse fun _ =>
        message.metadata.lookup "target_agent_id").getD ""

/-- The turns started by an event. -/
def startTurns (item : Item) : List Turn :=
  match item.envelope.event.data with
  | .messageReceived message =>
      match turnAgent message with
      | some agentId => [⟨agentId, item.lineage⟩]
      | none => []
  | _ => []

/-- The events that are broadcast before dispatch. -/
def ClotoEventData.broadcastFirst : ClotoEventData → Bool
  | .actionRequested _ _ => false
  | .permissionGranted _ _ => false
  | _ => true

/-- Steps (0) to (2) of an iteration: record, start a turn, broadcast. -/
def receiveItem (config : Config) (state : State) (item : Item) : State :=
  let seqEvent : SequencedEvent := ⟨state.nextSeq, item.envelope.event⟩
  let recorded := { state with nextSeq := state.nextSeq + 1 }.recordEvent config seqEvent
  let effects := if item.envelope.event.data.broadcastFirst then [Effect.broadcast state.nextSeq]
    else []
  { recorded.log effects with
    turns := recorded.turns ++ startTurns item
    current := some ⟨item, seqEvent, .recorded⟩ }

/-- `redispatch_plugin_event`: the reply of a plugin, issued by that plugin. -/
def redispatchPluginEvent (config : Config) (parent : Item) (pluginId : String)
    (data : ClotoEventData) : Item where
  envelope :=
    { event := ⟨parent.envelope.event.traceId, data⟩
      issuer := some (config.fromName pluginId)
      correlationId := some parent.envelope.event.traceId
      depth := parent.envelope.depth + 1 }
  ancestry := parent.lineage

/-- Replies that the registered plugins can give, at most one each. -/
def Config.AcceptsReplies (config : Config) (replies : List (String × ClotoEventData)) : Prop :=
  (replies.map Prod.fst).Nodup ∧ ∀ reply ∈ replies, reply.1 ∈ config.plugins

instance (config : Config) (replies : List (String × ClotoEventData)) :
    Decidable (config.AcceptsReplies replies) :=
  inferInstanceAs (Decidable (_ ∧ _))

/-- `dispatch_event`: nothing at or above the depth limit, otherwise every plugin
gets the event and its reply is redispatched. -/
def dispatchEvent (config : Config) (state : State) (item : Item) (seqId : Nat)
    (replies : List (String × ClotoEventData)) : Option State :=
  if config.maxEventDepth ≤ item.envelope.depth then
    if replies = [] then some state else none
  else if config.AcceptsReplies replies then
    some <| (state.log (config.plugins.map fun plugin =>
      .delivered plugin seqId item.envelope.depth)).sendAll
        (replies.map fun reply => redispatchPluginEvent config item reply.1 reply.2)
  else none

/-! ## The arms of the processor -/

/-- What the processor requeues for itself: no issuer, one level below. -/
def requeue (parent : Item) (data : ClotoEventData) : Item where
  envelope :=
    { event := ⟨parent.envelope.event.traceId, data⟩
      issuer := none
      correlationId := some parent.envelope.event.traceId
      depth := parent.envelope.depth + 1 }
  ancestry := parent.lineage

/-- The message that a `ThoughtResponse` is requeued as. -/
def thoughtMessage (resolution : Resolution) (agentId content : String) : ClotoMessage where
  id := resolution.messageId
  source := .agent agentId
  targetAgent := none
  content := content
  metadata := []

/-- What the check of an `ActionRequested` says. -/
inductive ActionVerdict where
  | forged
  | unauthorized
  | overRate
  | authorized
  deriving DecidableEq

/-- The check of an `ActionRequested`: the issuer is the requester or the kernel,
the requester holds `InputControl`, and the rate limit admits it. -/
def actionVerdict (config : Config) (state : State) (envelope : EnvelopedEvent)
    (requester : ClotoId) (now : Nat) : ActionVerdict :=
  if envelope.issuer.any fun issuer => issuer ≠ requester then .forged
  else if ¬ state.authorize requester .inputControl then .unauthorized
  else if ¬ config.admits state.rateChecks requester now then .overRate
  else .authorized

/-- The `ActionRequested` arm. -/
def settleAction (config : Config) (state : State) (envelope : EnvelopedEvent) (seqId : Nat)
    (requester : ClotoId) (now : Nat) : State :=
  let checked := { state with rateChecks := state.rateChecks ++ [(requester, now)] }
  match actionVerdict config state envelope requester now with
  | .forged | .unauthorized => state.log [.refused seqId]
  | .overRate => checked.log [.refused seqId]
  | .authorized => checked.log [.broadcast seqId, .authorized seqId]

/-- The `PermissionGranted` arm. -/
def settlePermission (config : Config) (state : State) (pluginId permission : String) : State :=
  match Permission.parse permission with
  | some legacy => state.updateEffectivePermissions (config.fromName pluginId) legacy
  | none => state

/-- A string of the callback's metadata, with the arm's default. -/
def metadataText (metadata : Option Json.Value) (name default : String) : String :=
  (metadata.bind fun value => value.getStr name).getD default

/-- A string of the callback's metadata, forwarded under `target` when present. -/
def forwardText (metadata : Option Json.Value) (name target : String) : List (String × String) :=
  match metadata.bind fun value => value.getStr name with
  | some text => [(target, text)]
  | none => []

/-- A member of the callback's metadata that `keep` accepts, forwarded as JSON
text. -/
def forwardJson (config : Config) (metadata : Option Json.Value) (name target : String)
    (keep : Json.Value → Bool) : List (String × String) :=
  match metadata.bind fun value => value.get name with
  | some value => if keep value then [(target, config.jsonText value)] else []
  | none => []

/-- The message that an external message callback is requeued as. -/
def externalMessage (config : Config) (resolution : Resolution)
    (callbackId serverId message : String) (metadata : Option Json.Value) : ClotoMessage where
  id := resolution.messageId
  source := .user
    (metadataText metadata "source" "external" ++ ":" ++ metadataText metadata "author_id" "0")
    (metadataText metadata "author_name" "Unknown")
  targetAgent := some resolution.targetAgentId
  content := message
  metadata :=
    [("target_agent_id", resolution.targetAgentId),
      ("external_action_id", "ext-" ++ callbackId),
      ("external_callback_id", callbackId),
      ("external_source", metadataText metadata "source" "external"),
      ("external_sender_name", metadataText metadata "author_name" "Unknown"),
      ("external_server_id", serverId),
      ("external_author_id", metadataText metadata "author_id" "0"),
      ("skip_user_persist", "true")] ++
    ["channel_id", "message_id", "guild_id", "session_id"].flatMap (fun name =>
      forwardText metadata name ("external_" ++ name)) ++
    forwardJson config metadata "reference" "external_reference" (fun value => !value.isNull) ++
    forwardJson config metadata "conversation_context" "conversation_context" (fun value =>
      value.asArray.isSome) ++
    ["tool_hint", "tool_args"].flatMap (fun name => forwardText metadata name name)

/-- The pending `ExternalAction` of an external message. -/
def externalPending (resolution : Resolution) (callbackId message : String)
    (metadata : Option Json.Value) : ClotoEventData :=
  .externalAction ("ext-" ++ callbackId) (metadataText metadata "source" "external")
    resolution.targetAgentId resolution.agentName message
    (metadataText metadata "author_name" "Unknown") resolution.engineId "pending" callbackId

/-- The `McpCallbackRequested` arm for an external message: record and broadcast
the pending action, requeue the message. -/
def settleExternal (config : Config) (state : State) (item : Item) (resolution : Resolution)
    (callbackId serverId message : String) (metadata : Option Json.Value) : State :=
  let pending : SequencedEvent := ⟨state.nextSeq,
    ⟨item.envelope.event.traceId, externalPending resolution callbackId message metadata⟩⟩
  let recorded := { state with nextSeq := state.nextSeq + 1 }.recordEvent config pending
  (recorded.log [.broadcast pending.seqId]).send
    (requeue item (.messageReceived
      (externalMessage config resolution callbackId serverId message metadata)))

/-- Step (4) of an iteration. -/
def settleEvent (config : Config) (state : State) (processing : Processing)
    (resolution : Resolution) : State :=
  let item := processing.item
  match item.envelope.event.data with
  | .thoughtResponse agentId _ content _ _ =>
      state.send (requeue item (.messageReceived (thoughtMessage resolution agentId content)))
  | .actionRequested requester _ =>
      settleAction config state item.envelope processing.seqEvent.seqId requester resolution.now
  | .permissionGranted pluginId permission => settlePermission config state pluginId permission
  | .mcpCallbackRequested callbackId serverId callbackType message metadata =>
      if callbackType = "external_message" then
        settleExternal config state item resolution callbackId serverId message metadata
      else state
  | _ => state

/-- The turn that runs next for its agent: the semaphore of an agent lets one
turn run at a time, in the order of their messages. -/
def State.running (state : State) (index : Nat) : Option Turn :=
  match state.turns[index]? with
  | some turn =>
      if (state.turns.take index).any fun earlier => earlier.agentId = turn.agentId then none
      else some turn
  | none => none

/-- What an agent turn emits: `depth` 0 and no issuer, whatever started it. -/
def handlerItem (turn : Turn) (event : ClotoEvent) : Item where
  envelope := .system event
  ancestry := turn.lineage

/-- One step of the processor or of a task around it. -/
def step (config : Config) : Action State Label
  | state, .inject event => some (state.send ⟨.system event, []⟩)
  | state, .receive index =>
      match state.current, state.pending[index]? with
      | none, some item =>
          some (receiveItem config { state with pending := state.pending.eraseIdx index } item)
      | _, _ => none
  | state, .dispatch replies =>
      match state.current with
      | some ⟨item, seqEvent, .recorded⟩ =>
          dispatchEvent config { state with current := some ⟨item, seqEvent, .dispatched⟩ } item
            seqEvent.seqId replies
      | _ => none
  | state, .settle resolution =>
      match state.current with
      | some ⟨item, seqEvent, .dispatched⟩ =>
          some (settleEvent config { state with current := none } ⟨item, seqEvent, .dispatched⟩
            resolution)
      | _ => none
  | state, .handlerEmit index event =>
      (state.running index).map fun turn => state.send (handlerItem turn event)
  | state, .turnEnds index =>
      (state.running index).map fun _ => { state with turns := state.turns.eraseIdx index }
  | state, .revoke pluginId permission =>
      let id := config.fromName pluginId
      some { state with
        permissions := fun other =>
          if other = id then (state.permissions id).filter fun held => held ≠ permission
          else state.permissions other }
  | state, .cleanup count => some { state with history := state.history.drop count }

end ClotoCore.Events
