import ClotoCore.Events.ActionGate
import ClotoCore.Sequence.Numbered

/-!
# Streams of events

The processor takes a number for an event, records it, and then broadcasts it or holds it
back.  A stream of the clients subscribes to the broadcast, reads the history behind the
last number that its client has seen, yields that, and then what it receives.  All of these
are steps of their own, in any order.
-/

namespace ClotoCore.Events.Resume

open ClotoCore.Sequence ClotoCore.Transition

/-- How far the processor is: it has taken a number, it has recorded the event, or it has
broadcast it where that comes first, and has dispatched it. -/
inductive Stage where
  | taken
  | recorded
  | dispatched

/-- The event in the processor's hands. -/
structure Held where
  seqEvent : SequencedEvent
  stage : Stage

/-- A stream of `sse_handler`: what is left of the replay once the history is read, what
the receiver holds, and what was yielded. -/
structure Stream where
  lastEventId : Option Nat
  replay : Option (List SequencedEvent)
  queue : List SequencedEvent
  delivered : List SequencedEvent
  lagged : Bool
  closed : Bool

/-- The processor and the streams.  What was recorded, sent and withheld altogether is not
read by a step. -/
structure State where
  nextSeq : Nat
  current : Option Held
  history : List SequencedEvent
  recorded : List SequencedEvent
  sent : List SequencedEvent
  withheld : List Nat
  streams : List Stream

/-- `GLOBAL_SEQ` starts at one. -/
def State.init : State where
  nextSeq := 1
  current := none
  history := []
  recorded := []
  sent := []
  withheld := []
  streams := []

/-- A step of the processor, or of a stream. -/
inductive Label where
  | take (event : ClotoEvent)
  | record
  | broadcast
  | settle (authorized : Bool) (resolution : Resolution)
  | cleanup (count : Nat)
  | connect (lastEventId : Option Nat)
  | read (n : Nat)
  | yield (n : Nat)
  | receive (n : Nat)
  | lag (n count : Nat)
  | close (n : Nat)

namespace Stream

/-- What the stream has yielded and what it is bound to yield. -/
def events (stream : Stream) : List SequencedEvent :=
  stream.delivered ++ stream.replay.getD [] ++ stream.queue

/-- The channel puts an event before a receiver. -/
def put (stream : Stream) (seqEvent : SequencedEvent) : Stream :=
  if stream.closed then stream else { stream with queue := stream.queue ++ [seqEvent] }

/-- A new stream has subscribed. -/
def opened (lastEventId : Option Nat) : Stream where
  lastEventId := lastEventId
  replay := none
  queue := []
  delivered := []
  lagged := false
  closed := false

/-- The events of the history to replay. -/
def missed (stream : Stream) (history : List SequencedEvent) : List SequencedEvent :=
  match stream.lastEventId with
  | some last => history.filter fun seqEvent => last < seqEvent.seqId
  | none => []

/-- The stream reads the history, once. -/
def read (stream : Stream) (history : List SequencedEvent) : Option Stream :=
  match stream.replay with
  | none => some { stream with replay := some (stream.missed history) }
  | some _ => none

/-- The stream sends the next event that it has read. -/
def yield (stream : Stream) : Option Stream :=
  match stream.replay with
  | some (seqEvent :: rest) => some
      { stream with replay := some rest, delivered := stream.delivered ++ [seqEvent] }
  | _ => none

/-- The stream sends the next event of its queue, once it has sent those it read. -/
def receive (stream : Stream) : Option Stream :=
  match stream.replay, stream.queue with
  | some [], seqEvent :: rest => some
      { stream with queue := rest, delivered := stream.delivered ++ [seqEvent] }
  | _, _ => none

/-- The receiver has missed the next messages and reports it. -/
def lag (stream : Stream) (count : Nat) : Option Stream :=
  match stream.replay with
  | some [] => some { stream with queue := stream.queue.drop count, lagged := true }
  | _ => none

/-- The client is gone, or the kernel shuts down. -/
def close (stream : Stream) : Stream :=
  { stream with replay := some [], queue := [], closed := true }

end Stream

namespace State

/-- A new `SequencedEvent`. -/
def take (state : State) (event : ClotoEvent) : State :=
  { state with
    nextSeq := state.nextSeq + 1
    current := some ⟨⟨state.nextSeq, event⟩, .taken⟩ }

/-- `record_event` -/
def recordEvent (maxHistorySize : Nat) (state : State) (seqEvent : SequencedEvent) : State :=
  { state with
    history := lastItems maxHistorySize (state.history ++ [seqEvent])
    recorded := state.recorded ++ [seqEvent]
    current := some ⟨seqEvent, .recorded⟩ }

/-- `tx_internal.send` -/
def send (state : State) (seqEvent : SequencedEvent) : State :=
  { state with
    sent := state.sent ++ [seqEvent]
    streams := state.streams.map fun stream => stream.put seqEvent }

/-- The event is not broadcast. -/
def withhold (state : State) (seqEvent : SequencedEvent) : State :=
  { state with withheld := state.withheld ++ [seqEvent.seqId] }

/-- What is broadcast before it is dispatched. -/
def broadcast (state : State) (seqEvent : SequencedEvent) : State :=
  let dispatched := { state with current := some ⟨seqEvent, .dispatched⟩ }
  if seqEvent.event.data.broadcastFirst then dispatched.send seqEvent else dispatched

/-- The arms of the processor, as far as they broadcast. -/
def settle (state : State) (seqEvent : SequencedEvent) (authorized : Bool)
    (resolution : Resolution) : State :=
  let settled := { state with current := none }
  match seqEvent.event.data with
  | .actionRequested _ _ =>
      if authorized then settled.send seqEvent else settled.withhold seqEvent
  | .permissionGranted _ _ => settled.withhold seqEvent
  | .mcpCallbackRequested callbackId _ callbackType message metadata =>
      if callbackType = "external_message" then
        settled.take
          ⟨seqEvent.event.traceId, externalPending resolution callbackId message metadata⟩
      else settled
  | _ => settled

/-- A step of a stream. -/
def onStream (state : State) (n : Nat) (act : Stream → Option Stream) : Option State :=
  (state.streams[n]?).bind fun stream =>
    (act stream).map fun next => { state with streams := state.streams.set n next }

end State

/-- One step. -/
def step (maxHistorySize : Nat) : Action State Label
  | state, .take event =>
      match state.current with
      | none => some (state.take event)
      | _ => none
  | state, .record =>
      match state.current with
      | some ⟨seqEvent, .taken⟩ => some (state.recordEvent maxHistorySize seqEvent)
      | _ => none
  | state, .broadcast =>
      match state.current with
      | some ⟨seqEvent, .recorded⟩ => some (state.broadcast seqEvent)
      | _ => none
  | state, .settle authorized resolution =>
      match state.current with
      | some ⟨seqEvent, .dispatched⟩ => some (state.settle seqEvent authorized resolution)
      | _ => none
  | state, .cleanup count => some { state with history := state.history.drop count }
  | state, .connect lastEventId =>
      some { state with streams := state.streams ++ [.opened lastEventId] }
  | state, .read n => state.onStream n fun stream => stream.read state.history
  | state, .yield n => state.onStream n Stream.yield
  | state, .receive n => state.onStream n Stream.receive
  | state, .lag n count => state.onStream n fun stream => stream.lag count
  | state, .close n => state.onStream n fun stream => some stream.close

/-! ## The event bus -/

variable {config : Config} {bus nextBus : Events.State} {maxHistorySize : Nat}
  {state next : State}

/-- The number of a broadcast of the event bus. -/
def broadcastOf : Effect → Option Nat
  | .broadcast seqId => some seqId
  | _ => none

/-- The processor here is where that of the event bus is. -/
structure Follows (bus : Events.State) (state : State) : Prop where
  nextSeq : state.nextSeq = bus.nextSeq
  history : state.history = bus.history
  sent : state.sent.map SequencedEvent.seqId = bus.effects.filterMap broadcastOf
  current : state.current = bus.current.map fun processing => ⟨processing.seqEvent, .dispatched⟩
  event : ∀ processing ∈ bus.current, processing.seqEvent.event = processing.item.envelope.event

theorem broadcastOf_storeEffects (config : Config) (seqId : Nat) :
    (storeEffects config seqId).filterMap broadcastOf = [] := by
  unfold storeEffects
  split <;> rfl

theorem broadcastOf_receiveEffects (config : Config) (seqId : Nat) (data : ClotoEventData) :
    (receiveEffects config seqId data).filterMap broadcastOf
      = if data.broadcastFirst then [seqId] else [] := by
  rw [receiveEffects, List.filterMap_append, broadcastOf_storeEffects, List.nil_append]
  split <;> rfl

/-- What a broadcast changes in the processor. -/
theorem broadcast_frame (state : State) (seqEvent : SequencedEvent) :
    (state.broadcast seqEvent).nextSeq = state.nextSeq ∧
      (state.broadcast seqEvent).history = state.history ∧
        (state.broadcast seqEvent).current = some ⟨seqEvent, .dispatched⟩ ∧
          (state.broadcast seqEvent).sent
            = state.sent ++ if seqEvent.event.data.broadcastFirst then [seqEvent] else [] := by
  unfold State.broadcast
  simp only
  split
  · exact ⟨rfl, rfl, rfl, rfl⟩
  · exact ⟨rfl, rfl, rfl, (List.append_nil _).symm⟩


/-- An event that the processor takes, records and broadcasts. -/
def State.publish (maxHistorySize : Nat) (state : State) (event : ClotoEvent) : State :=
  ((state.take event).recordEvent maxHistorySize ⟨state.nextSeq, event⟩).broadcast
    ⟨state.nextSeq, event⟩

/-- Where the processor has taken an event, it goes on to record and to broadcast it. -/
theorem run_publish (event : ClotoEvent) :
    run (step maxHistorySize) (state.take event) [.record, .broadcast]
      = some (state.publish maxHistorySize event) :=
  rfl

theorem publish_frame (maxHistorySize : Nat) (state : State) (event : ClotoEvent) :
    (state.publish maxHistorySize event).nextSeq = state.nextSeq + 1 ∧
      (state.publish maxHistorySize event).history
          = lastItems maxHistorySize (state.history ++ [⟨state.nextSeq, event⟩]) ∧
        (state.publish maxHistorySize event).current
            = some ⟨⟨state.nextSeq, event⟩, .dispatched⟩ ∧
          (state.publish maxHistorySize event).sent.map SequencedEvent.seqId
            = state.sent.map SequencedEvent.seqId ++
              if event.data.broadcastFirst then [state.nextSeq] else [] := by
  rcases broadcast_frame ((state.take event).recordEvent maxHistorySize ⟨state.nextSeq, event⟩)
    ⟨state.nextSeq, event⟩ with ⟨nextSeq, history, current, sent⟩
  refine ⟨nextSeq, history, current, ?_⟩
  unfold State.publish
  rw [sent, List.map_append]
  split <;> rfl

/-- An envelope that is received is taken, recorded and broadcast here. -/
theorem Follows.receive (follows : Follows bus state) (idle : bus.current = none) (item : Item) :
    ∃ next, run (step config.maxHistorySize) state
        [.take item.envelope.event, .record, .broadcast] = some next ∧
      Follows (receiveItem config bus item) next := by
  have isIdle : state.current = none := by
    rw [follows.current, idle]
    rfl
  rcases publish_frame config.maxHistorySize state item.envelope.event with
    ⟨nextSeq, history, current, sent⟩
  refine ⟨state.publish config.maxHistorySize item.envelope.event, ?_, ?_⟩
  · apply run_cons_eq_some_iff.mpr
    refine ⟨state.take item.envelope.event, ?_, run_publish item.envelope.event⟩
    simp only [step, isIdle]
  · constructor
    · rw [nextSeq, follows.nextSeq]
      rfl
    · rw [history, follows.history, follows.nextSeq]
      rfl
    · have effects : (receiveItem config bus item).effects
          = bus.effects ++ receiveEffects config bus.nextSeq item.envelope.event.data :=
        List.append_assoc _ _ _
      rw [sent, effects, List.filterMap_append, broadcastOf_receiveEffects, follows.sent,
        follows.nextSeq]
    · rw [current, follows.nextSeq]
      rfl
    · rintro processing ⟨⟩
      rfl

/-- The processor is where that of the event bus is when both have nothing in their hands. -/
theorem follows_idle (nextSeq : next.nextSeq = nextBus.nextSeq)
    (history : next.history = nextBus.history)
    (sent : next.sent.map SequencedEvent.seqId = nextBus.effects.filterMap broadcastOf)
    (current : next.current = none) (idle : nextBus.current = none) : Follows nextBus next := by
  constructor
  · exact nextSeq
  · exact history
  · exact sent
  · rw [current, idle]
    rfl
  · intro processing isCurrent
    cases idle.symm.trans isCurrent

/-- What the event bus settles is settled here; an external message is then published. -/
theorem Follows.settle {item : Item} {processed : SequencedEvent} (follows : Follows bus state)
    (held : bus.current = some ⟨item, processed, .dispatched⟩) (resolution : Resolution) :
    ∃ labels next, run (step config.maxHistorySize) state labels = some next ∧
      Follows (settleEvent config { bus with current := none } ⟨item, processed, .dispatched⟩
        resolution) next := by
  have isHeld : state.current = some ⟨processed, .dispatched⟩ := by
    rw [follows.current, held]
    rfl
  have event : processed.event = item.envelope.event := follows.event _ held
  have settles : ∀ authorized, run (step config.maxHistorySize) state
      [.settle authorized resolution] = some (state.settle processed authorized resolution) := by
    intro authorized
    simp only [run, step, isHeld, Option.bind_some]
  have nextSeq := nextSeq_settleEvent config { bus with current := none }
    ⟨item, processed, .dispatched⟩ resolution
  have effects := effects_settleEvent config { bus with current := none }
    ⟨item, processed, .dispatched⟩ resolution
  have idle := current_settleEvent config { bus with current := none }
    ⟨item, processed, .dispatched⟩ resolution
  -- the arms that do not broadcast
  have plain : ∀ {settled : Events.State},
      state.settle processed true resolution = { state with current := none } →
        settled.nextSeq = bus.nextSeq → settled.history = bus.history →
          settled.effects = bus.effects → settled.current = none →
            ∃ labels next, run (step config.maxHistorySize) state labels = some next ∧
              Follows settled next := by
    intro settled same sameNext sameHistory sameEffects isIdle
    refine ⟨_, _, (settles true).trans (congrArg some same), ?_⟩
    refine follows_idle ?_ ?_ ?_ rfl isIdle
    · rw [sameNext]
      exact follows.nextSeq
    · rw [sameHistory]
      exact follows.history
    · rw [sameEffects]
      exact follows.sent
  simp only [settleEffects] at effects
  cases data : item.envelope.event.data with
  | actionRequested requester action =>
      have history : (settleEvent config { bus with current := none }
          ⟨item, processed, .dispatched⟩ resolution).history = bus.history := by
        simp only [settleEvent, data, settleAction]
        split <;> rfl
      simp only [data] at nextSeq effects
      by_cases verdict : actionVerdict config { bus with current := none } item.envelope requester
          resolution.now = .authorized
      · rw [if_pos verdict] at effects
        have same : state.settle processed true resolution
            = { state with current := none }.send processed := by
          simp only [State.settle, event, data]
          rfl
        refine ⟨_, _, (settles true).trans (congrArg some same), ?_⟩
        refine follows_idle (follows.nextSeq.trans nextSeq.symm)
          (follows.history.trans history.symm) ?_ rfl idle
        rw [effects, List.filterMap_append]
        simp [State.send, follows.sent, broadcastOf]
      · rw [if_neg verdict] at effects
        have same : state.settle processed false resolution
            = { state with current := none }.withhold processed := by
          simp only [State.settle, event, data]
          rfl
        refine ⟨_, _, (settles false).trans (congrArg some same), ?_⟩
        refine follows_idle (follows.nextSeq.trans nextSeq.symm)
          (follows.history.trans history.symm) ?_ rfl idle
        rw [effects, List.filterMap_append]
        simp [State.withhold, follows.sent, broadcastOf]
  | permissionGranted pluginId permission =>
      have same : state.settle processed true resolution
          = { state with current := none }.withhold processed := by
        simp only [State.settle, event, data]
      refine ⟨_, _, (settles true).trans (congrArg some same), ?_⟩
      simp only [data, List.append_nil] at nextSeq effects
      refine follows_idle ?_ ?_ ?_ rfl idle
      · rw [nextSeq]
        exact follows.nextSeq
      · simp only [settleEvent, data, settlePermission]
        split <;> exact follows.history
      · rw [effects]
        exact follows.sent
  | mcpCallbackRequested callbackId serverId callbackType message metadata =>
      simp only [data] at nextSeq effects
      by_cases external : callbackType = "external_message"
      · rw [if_pos external] at nextSeq effects
        let pending : ClotoEvent := ⟨item.envelope.event.traceId,
          externalPending resolution callbackId message metadata⟩
        let published := { state with current := none }.publish config.maxHistorySize pending
        have same : state.settle processed true resolution
            = { state with current := none }.take pending := by
          simp only [State.settle, event, data, if_pos external]
          rfl
        rcases publish_frame config.maxHistorySize { state with current := none } pending with
          ⟨publishedNext, publishedHistory, publishedCurrent, publishedSent⟩
        refine ⟨([.settle true resolution] : List Label) ++
          (([.record, .broadcast] : List Label) ++ ([.settle true resolution] : List Label)),
          { published with current := none }, ?_, ?_⟩
        · apply run_append_eq_some_iff.mpr
          refine ⟨_, (settles true).trans (congrArg some same), ?_⟩
          apply run_append_eq_some_iff.mpr
          refine ⟨published, run_publish pending, ?_⟩
          simp only [run, step, published, publishedCurrent, Option.bind_some]
          rfl
        · refine follows_idle ?_ ?_ ?_ rfl idle
          · rw [nextSeq]
            exact publishedNext.trans (congrArg (· + 1) follows.nextSeq)
          · simp only [settleEvent, data, if_pos external]
            refine publishedHistory.trans ?_
            simp only [follows.history, follows.nextSeq]
            rfl
          · rw [effects, List.filterMap_append, List.filterMap_append, broadcastOf_storeEffects,
              ← follows.sent]
            refine publishedSent.trans ?_
            simp only [follows.nextSeq]
            rfl
      · rw [if_neg external] at nextSeq effects
        rw [List.append_nil] at effects
        apply plain _ nextSeq _ effects idle
        · simp only [State.settle, event, data, if_neg external]
        · simp only [settleEvent, data, if_neg external]
  | messageReceived message =>
      simp only [data, List.append_nil] at nextSeq effects
      apply plain _ nextSeq _ effects idle
      · simp only [State.settle, event, data]
      · simp only [settleEvent, data]
  | thoughtResponse agentId engineId content sourceMessageId autoSpoken =>
      simp only [data, List.append_nil] at nextSeq effects
      apply plain _ nextSeq _ effects idle
      · simp only [State.settle, event, data]
      · simp only [settleEvent, data]
        rfl
  | externalAction =>
      simp only [data, List.append_nil] at nextSeq effects
      apply plain _ nextSeq _ effects idle
      · simp only [State.settle, event, data]
      · simp only [settleEvent, data]
  | other name =>
      simp only [data, List.append_nil] at nextSeq effects
      apply plain _ nextSeq _ effects idle
      · simp only [State.settle, event, data]
      · simp only [settleEvent, data]

/-- Every step of the event bus is followed by steps of the processor here. -/
theorem follows_step {label : Events.Label} (follows : Follows bus state)
    (stepEq : Events.step config bus label = some nextBus) :
    ∃ labels next, run (step config.maxHistorySize) state labels = some next ∧
      Follows nextBus next := by
  cases label with
  | inject event =>
      cases stepEq
      exact ⟨[], state, rfl, { follows with }⟩
  | receive index =>
      simp only [Events.step] at stepEq
      split at stepEq
      · next item idle there =>
        cases stepEq
        have same : Follows { bus with pending := bus.pending.eraseIdx index } state :=
          { follows with }
        rcases same.receive idle item with ⟨next, ran, nextFollows⟩
        exact ⟨_, next, ran, nextFollows⟩
      · cases stepEq
  | dispatch replies =>
      simp only [Events.step] at stepEq
      split at stepEq
      · next item processed held =>
        have current : state.current = some ⟨processed, .dispatched⟩ := by
          rw [follows.current, held]
          rfl
        have same : processed.event = item.envelope.event := follows.event _ held
        have event : ∀ processing ∈ some (⟨item, processed, .dispatched⟩ : Processing),
            processing.seqEvent.event = processing.item.envelope.event := by
          rintro processing ⟨⟩
          exact same
        simp only [dispatchEvent] at stepEq
        split at stepEq
        · split at stepEq
          · cases stepEq
            exact ⟨[], state, rfl, { follows with current := current, event := event }⟩
          · cases stepEq
        · split at stepEq
          · cases stepEq
            refine ⟨[], state, rfl, { follows with current := current, event := event, sent := ?_ }⟩
            have delivered : (config.plugins.map fun plugin =>
                Effect.delivered plugin processed.seqId item.envelope.depth).filterMap broadcastOf
                  = [] := by
              rw [List.filterMap_eq_nil_iff]
              intro effect mem
              rcases List.mem_map.mp mem with ⟨plugin, -, rfl⟩
              rfl
            simp only [Events.State.log, Events.State.sendAll]
            rw [List.filterMap_append, delivered, List.append_nil]
            exact follows.sent
          · cases stepEq
      · cases stepEq
  | settle resolution =>
      rcases settle_eq_some stepEq with ⟨item, processed, held, rfl⟩
      exact follows.settle held resolution
  | handlerEmit index event =>
      rcases Option.map_eq_some_iff.mp stepEq with ⟨turn, -, rfl⟩
      exact ⟨[], state, rfl, { follows with }⟩
  | turnEnds index =>
      rcases Option.map_eq_some_iff.mp stepEq with ⟨turn, -, rfl⟩
      exact ⟨[], state, rfl, { follows with }⟩
  | revoke pluginId permission =>
      cases stepEq
      exact ⟨[], state, rfl, { follows with }⟩
  | cleanup count =>
      cases stepEq
      refine ⟨[.cleanup count], _, rfl, ?_⟩
      have history : state.history.drop count = bus.history.drop count :=
        congrArg (List.drop count) follows.history
      exact { follows with history := history }

/-- Every run of the event bus is followed by a run of the processor here. -/
theorem follows_run {labels : List Events.Label} (follows : Follows bus state)
    (ran : run (Events.step config) bus labels = some nextBus) :
    ∃ labels next, run (step config.maxHistorySize) state labels = some next ∧
      Follows nextBus next := by
  induction labels generalizing bus state with
  | nil =>
      cases ran
      exact ⟨[], state, rfl, follows⟩
  | cons label labels ih =>
      rcases run_cons_eq_some_iff.mp ran with ⟨middle, stepEq, rest⟩
      rcases follows_step follows stepEq with ⟨first, between, firstRan, follows⟩
      rcases ih follows rest with ⟨second, next, secondRan, follows⟩
      exact ⟨first ++ second, next,
        run_append_eq_some_iff.mpr ⟨between, firstRan, secondRan⟩, follows⟩

end ClotoCore.Events.Resume
