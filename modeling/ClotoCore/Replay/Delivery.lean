import ClotoCore.Replay.Subscriptions

/-!
# Replay and delivery

An event is buffered before it is delivered.  Delivery asks the channels and the
filter of a subscription, replay only its channels.
-/

namespace ClotoCore.Replay

open ClotoCore.Access ClotoCore.Json ClotoCore.Lookup ClotoCore.Mcp
  ClotoCore.Sequence

/-! ## Replay of a subscription -/

/-- `resource_not_found` -/
def resourceNotFound (message : String) : ToolFailure :=
  .mgpError 4004 message

/-- The answer of `replay`. -/
structure ReplayAnswer where
  subscriptionId : String
  events : List BufferedEvent
  hasMore : Bool
  truncated : Bool

/-- A number of the arguments, as `as_u64` reads it. -/
def numberArg (args : Value) (name : String) : Option Nat :=
  ((args.get name).bind Value.asU64).map UInt64.toNat

/-- `replay` -/
def replay (table : SubscriptionTable) (buffer : List BufferedEvent) (args : Value) :
    Except ToolFailure ReplayAnswer :=
  match args.getStr "subscription_id" with
  | none => .error (invalidToolArg (missingToolArg "subscription_id"))
  | some id =>
      match table.get id with
      | none => .error (resourceNotFound s!"Subscription '{id}' not found")
      | some sub =>
          let afterSeq := (numberArg args "after_seq").getD 0
          let page := readPage buffer sub.channels afterSeq (numberArg args "limit")
          .ok
            { subscriptionId := id
              events := page.events
              hasMore := page.hasMore
              truncated := isTruncated buffer afterSeq }

/-! ## Delivery of a sequence of events -/

/-- An event that is emitted, and the subscriptions and servers that it meets. -/
structure Emission where
  table : SubscriptionTable
  manager : Manager
  channel : String
  data : Value
  timestamp : String

/-- The numbers taken, the buffer, and the subscriptions that were sent which event. -/
structure Journal where
  eventSeq : Nat
  buffer : List BufferedEvent
  sent : List (EventSubscription × BufferedEvent)

/-- Nothing has been emitted yet. -/
def Journal.start : Journal where
  eventSeq := 0
  buffer := []
  sent := []

/-- The event of an emission that takes a number. -/
def Emission.event (emission : Emission) (seq : Nat) : BufferedEvent where
  seq := seq
  channel := emission.channel
  data := emission.data
  timestamp := emission.timestamp

/-- The subscriptions that are sent the event of an emission. -/
def Emission.receivers (sameNumber : Number → Number → Bool) (emission : Emission) :
    List EventSubscription :=
  Replay.receivers sameNumber emission.table emission.manager emission.channel emission.data

/-- `deliver_event` -/
def deliverEvent (sameNumber : Number → Number → Bool) (journal : Journal) (emission : Emission) :
    Journal :=
  let event := emission.event (journal.eventSeq + 1)
  let buffer := journal.buffer ++ [event]
  { eventSeq := journal.eventSeq + 1
    buffer := buffer.drop (excess buffer)
    sent := journal.sent ++ (emission.receivers sameNumber).map fun sub => (sub, event) }

/-- A sequence of events is delivered. -/
def deliverAll (sameNumber : Number → Number → Bool) (emissions : List Emission) : Journal :=
  emissions.foldl (deliverEvent sameNumber) Journal.start

/-- The emissions and their events. -/
def numberedEvents (emissions : List Emission) : List (Emission × BufferedEvent) :=
  emissions.mapIdx fun index emission => (emission, emission.event (index + 1))

/-! ## Replay against delivery -/

/-- The subscription is there when an event is emitted, and its server can be reached. -/
def Emission.Active (sub : EventSubscription) (emission : Emission) : Prop :=
  sub ∈ emission.table.items ∧ isReachable emission.manager sub.serverId = true

/-- Delivery sends such an event to the subscription when it is active. -/
def WouldSend (sameNumber : Number → Number → Bool) (sub : EventSubscription)
    (event : BufferedEvent) : Prop :=
  ∃ emission : Emission, emission.Active sub ∧ emission.event event.seq = event ∧
    sub ∈ emission.receivers sameNumber

/-- A replay for the subscription returns the event. -/
def Replayed (table : SubscriptionTable) (buffer : List BufferedEvent) (sub : EventSubscription)
    (event : BufferedEvent) : Prop :=
  ∃ args answer, args.getStr "subscription_id" = some sub.id ∧
    replay table buffer args = .ok answer ∧ event ∈ answer.events

/-- Replay returns the buffered events that delivery would have sent, and of those that
were emitted while the subscription was active the ones that it has sent. -/
structure ReplayIsLive (sameNumber : Number → Number → Bool) (table : SubscriptionTable)
    (emissions : List Emission) (sub : EventSubscription) : Prop where
  wouldSend : ∀ event, Replayed table (deliverAll sameNumber emissions).buffer sub event ↔
    event ∈ (deliverAll sameNumber emissions).buffer ∧ WouldSend sameNumber sub event
  sent : ∀ numbered ∈ numberedEvents emissions, numbered.1.Active sub →
    numbered.2 ∈ (deliverAll sameNumber emissions).buffer →
      (Replayed table (deliverAll sameNumber emissions).buffer sub numbered.2 ↔
        (sub, numbered.2) ∈ (deliverAll sameNumber emissions).sent)

/-! ## The buffer of a sequence -/

section Sequence

variable {sameNumber : Number → Number → Bool} {emissions : List Emission}
  {numbered other : Emission × BufferedEvent} {sub : EventSubscription}

theorem numberedEvents_concat (emission : Emission) :
    numberedEvents (emissions ++ [emission]) =
      numberedEvents emissions ++ [(emission, emission.event (emissions.length + 1))] :=
  List.mapIdx_concat

theorem length_numberedEvents : (numberedEvents emissions).length = emissions.length :=
  List.length_mapIdx

theorem mem_numberedEvents_iff : numbered ∈ numberedEvents emissions ↔
    ∃ index, ∃ _ : index < emissions.length,
      (emissions[index], emissions[index].event (index + 1)) = numbered :=
  List.mem_mapIdx

/-- Two emissions do not have one number. -/
theorem eq_of_seq_eq (mem : numbered ∈ numberedEvents emissions)
    (otherMem : other ∈ numberedEvents emissions) (same : numbered.2.seq = other.2.seq) :
    numbered = other := by
  rcases mem_numberedEvents_iff.mp mem with ⟨index, inside, rfl⟩
  rcases mem_numberedEvents_iff.mp otherMem with ⟨otherIndex, otherInside, rfl⟩
  have sameIndex : index = otherIndex := Nat.succ.inj same
  subst sameIndex
  rfl

theorem deliverAll_concat (emission : Emission) :
    deliverAll sameNumber (emissions ++ [emission]) =
      deliverEvent sameNumber (deliverAll sameNumber emissions) emission :=
  List.foldl_concat _ _ _ _

theorem deliverAll_eventSeq : (deliverAll sameNumber emissions).eventSeq = emissions.length := by
  induction emissions using List.reverseRecOn with
  | nil => rfl
  | append_singleton emissions emission ih =>
      rw [deliverAll_concat, deliverEvent, ih, List.length_append, List.length_singleton]

/-- The buffer holds the last events. -/
theorem deliverAll_buffer : (deliverAll sameNumber emissions).buffer =
    lastItems maxBufferSize ((numberedEvents emissions).map Prod.snd) := by
  induction emissions using List.reverseRecOn with
  | nil => rfl
  | append_singleton emissions emission ih =>
      have counted : (deliverAll sameNumber emissions).eventSeq = emissions.length :=
        deliverAll_eventSeq
      rw [numberedEvents_concat, List.map_append, List.map_singleton, ← lastItems_concat, ← ih,
        ← counted, deliverAll_concat]
      rw [deliverEvent, lastItems, excess]

theorem deliverAll_sent : (deliverAll sameNumber emissions).sent =
    (numberedEvents emissions).flatMap fun numbered =>
      (numbered.1.receivers sameNumber).map fun sub => (sub, numbered.2) := by
  induction emissions using List.reverseRecOn with
  | nil => rfl
  | append_singleton emissions emission ih =>
      rw [deliverAll_concat, deliverEvent, ih, deliverAll_eventSeq, numberedEvents_concat,
        List.flatMap_append, List.flatMap_singleton]

/-- What was sent of an emission. -/
theorem mem_sent_iff (mem : numbered ∈ numberedEvents emissions) :
    (sub, numbered.2) ∈ (deliverAll sameNumber emissions).sent ↔
      sub ∈ numbered.1.receivers sameNumber := by
  rw [deliverAll_sent, List.mem_flatMap]
  constructor
  · rintro ⟨other, otherMem, sent⟩
    rcases List.mem_map.mp sent with ⟨receiver, received, same⟩
    cases Prod.mk.inj same with
    | intro sameSub sameEvent =>
        have sameOther := eq_of_seq_eq otherMem mem (congrArg BufferedEvent.seq sameEvent)
        rw [← sameSub, ← sameOther]
        exact received
  · intro received
    exact ⟨numbered, mem, List.mem_map.mpr ⟨sub, received, rfl⟩⟩

end Sequence

/-! ## What replay and delivery ask -/

section Asked

variable {sameNumber : Number → Number → Bool} {table : SubscriptionTable}
  {buffer : List BufferedEvent} {emissions : List Emission} {emission : Emission}
  {numbered : Emission × BufferedEvent} {sub : EventSubscription} {event : BufferedEvent}
  {args : Value}

theorem replay_of_stored (buffer : List BufferedEvent) (stored : table.get sub.id = some sub)
    (named : args.getStr "subscription_id" = some sub.id) :
    ∃ answer, replay table buffer args = .ok answer ∧
      answer.events = (readPage buffer sub.channels ((numberArg args "after_seq").getD 0)
        (numberArg args "limit")).events := by
  rw [replay, named]
  dsimp only
  rw [stored]
  exact ⟨_, rfl, rfl⟩

/-- The arguments of one replay of all that is buffered. -/
def wholeArgs (id : String) : Value :=
  .object [("subscription_id", .string id), ("limit", .number (Number.ofNat 1000))]

theorem wholeArgs_named (id : String) : (wholeArgs id).getStr "subscription_id" = some id :=
  rfl

theorem pageLimit_wholeArgs (id : String) :
    pageLimit (numberArg (wholeArgs id) "limit") = maxBufferSize := by
  have limit : numberArg (wholeArgs id) "limit" = some 1000 := by
    simp [numberArg, wholeArgs, Value.get, lastValue, Value.asU64, Number.ofNat, UInt64.size]
  rw [limit]
  decide

/-- Replay asks for the channels. -/
theorem replayed_iff (stored : table.get sub.id = some sub)
    (short : buffer.length ≤ maxBufferSize) (positive : ∀ event ∈ buffer, 0 < event.seq) :
    Replayed table buffer sub event ↔ event ∈ buffer ∧ wanted sub.channels event = true := by
  constructor
  · rintro ⟨args, answer, named, replayed, mem⟩
    rcases replay_of_stored buffer stored named with ⟨other, otherEq, events⟩
    rw [replayed] at otherEq
    cases otherEq
    rw [events, readPage_events] at mem
    have waits := mem_waiting_iff.mp (List.mem_of_mem_take mem)
    exact ⟨waits.1, waits.2.1⟩
  · rintro ⟨mem, isWanted⟩
    -- one page from the start holds as many events as the buffer
    rcases replay_of_stored buffer stored (wholeArgs_named sub.id) with
      ⟨answer, answerEq, events⟩
    refine ⟨wholeArgs sub.id, answer, wholeArgs_named sub.id, answerEq, ?_⟩
    rw [events]
    apply mem_events_of_drained
    · apply readPage_hasMore.mpr
      rw [pageLimit_wholeArgs]
      exact Nat.le_trans length_waiting_le short
    · exact mem_waiting_iff.mpr ⟨mem, isWanted, positive event mem⟩

theorem Emission.mem_receivers_iff : sub ∈ emission.receivers sameNumber ↔
    sub ∈ emission.table.items ∧
      sub.accepts sameNumber emission.manager emission.channel emission.data = true :=
  Replay.mem_receivers_iff

/-- Delivery to an active subscription asks for the channels and the filter. -/
theorem Emission.Active.mem_receivers_iff (active : emission.Active sub) :
    sub ∈ emission.receivers sameNumber ↔
      matchesChannels sub.channels emission.channel = true ∧
        sub.passes sameNumber emission.data = true := by
  rw [Emission.mem_receivers_iff, EventSubscription.accepts, active.2, Bool.and_true,
    Bool.and_eq_true]
  constructor
  · exact And.right
  · exact fun asked => ⟨active.1, asked⟩

/-- An emission that meets a subscription whose server is connected. -/
def activeEmission (sub : EventSubscription) (event : BufferedEvent) : Emission where
  table := (Keyed.empty EventSubscription.id).insert sub
  manager := Manager.empty.register (connectedHandle sub.serverId []) none
  channel := event.channel
  data := event.data
  timestamp := event.timestamp

theorem active_activeEmission : (activeEmission sub event).Active sub := by
  constructor
  · exact List.mem_concat_self
  · simp [activeEmission, isReachable, Manager.register, connectedHandle,
      ServerStatus.isOperational]

theorem wouldSend_iff : WouldSend sameNumber sub event ↔
    wanted sub.channels event = true ∧ sub.passes sameNumber event.data = true := by
  constructor
  · rintro ⟨emission, active, same, received⟩
    rw [active.mem_receivers_iff] at received
    rw [← same]
    exact received
  · intro asked
    refine ⟨activeEmission sub event, active_activeEmission, rfl, ?_⟩
    rw [active_activeEmission.mem_receivers_iff]
    exact asked

/-! ## Events of the buffer -/

theorem mem_deliverAll_buffer_iff : event ∈ (deliverAll sameNumber emissions).buffer ↔
    ∃ numbered ∈ lastItems maxBufferSize (numberedEvents emissions), numbered.2 = event := by
  rw [deliverAll_buffer, lastItems, List.length_map, ← List.map_drop, List.mem_map]
  rfl

theorem map_fst_numberedEvents : (numberedEvents emissions).map Prod.fst = emissions := by
  induction emissions using List.reverseRecOn with
  | nil => rfl
  | append_singleton emissions emission ih =>
      rw [numberedEvents_concat, List.map_append, ih, List.map_singleton]

theorem map_fst_lastItems : (lastItems maxBufferSize (numberedEvents emissions)).map Prod.fst =
    lastItems maxBufferSize emissions := by
  rw [lastItems, lastItems, List.map_drop, map_fst_numberedEvents, length_numberedEvents]

theorem positive_of_mem_buffer (mem : event ∈ (deliverAll sameNumber emissions).buffer) :
    0 < event.seq := by
  rcases mem_deliverAll_buffer_iff.mp mem with ⟨numbered, last, rfl⟩
  rcases mem_numberedEvents_iff.mp (List.mem_of_mem_drop last) with ⟨index, inside, rfl⟩
  exact Nat.succ_pos index

theorem replayed_deliverAll_iff (stored : table.get sub.id = some sub) :
    Replayed table (deliverAll sameNumber emissions).buffer sub event ↔
      event ∈ (deliverAll sameNumber emissions).buffer ∧ wanted sub.channels event = true := by
  apply replayed_iff stored
  · rw [deliverAll_buffer]
    exact length_lastItems_le maxBufferSize
  · exact fun _ mem => positive_of_mem_buffer mem

/-- What was emitted has the channel and the data of its event. -/
theorem event_of_mem (mem : numbered ∈ numberedEvents emissions) :
    numbered.2.channel = numbered.1.channel ∧ numbered.2.data = numbered.1.data := by
  rcases mem_numberedEvents_iff.mp mem with ⟨index, inside, rfl⟩
  exact ⟨rfl, rfl⟩

/-- The filter lets the last emissions pass exactly if it does so with the events that
are buffered. -/
theorem passing_iff :
    (∀ emission ∈ lastItems maxBufferSize emissions,
        matchesChannels sub.channels emission.channel = true →
          sub.passes sameNumber emission.data = true) ↔
      ∀ event ∈ (deliverAll sameNumber emissions).buffer, wanted sub.channels event = true →
        sub.passes sameNumber event.data = true := by
  rw [← map_fst_lastItems]
  constructor
  · intro passing event buffered isWanted
    rcases mem_deliverAll_buffer_iff.mp buffered with ⟨numbered, last, rfl⟩
    rcases event_of_mem (List.mem_of_mem_drop last) with ⟨channelEq, dataEq⟩
    rw [wanted, channelEq] at isWanted
    rw [dataEq]
    exact passing numbered.1 (List.mem_map_of_mem last) isWanted
  · intro passing emission mem onChannel
    rcases List.mem_map.mp mem with ⟨numbered, last, rfl⟩
    rcases event_of_mem (List.mem_of_mem_drop last) with ⟨channelEq, dataEq⟩
    rw [← dataEq]
    apply passing numbered.2
    · exact mem_deliverAll_buffer_iff.mpr ⟨numbered, last, rfl⟩
    · rw [wanted, channelEq]
      exact onChannel

end Asked

/-! ## Main theorem -/

/-- Replay is delivery exactly if the filter lets every event pass that is buffered on the
channels of the subscription. -/
theorem replayIsLive_iff (sameNumber : Number → Number → Bool) (table : SubscriptionTable)
    (emissions : List Emission) (sub : EventSubscription)
    (stored : table.get sub.id = some sub) :
    ReplayIsLive sameNumber table emissions sub ↔
      ∀ emission ∈ lastItems maxBufferSize emissions,
        matchesChannels sub.channels emission.channel = true →
          sub.passes sameNumber emission.data = true := by
  rw [passing_iff]
  constructor
  · intro live event buffered isWanted
    have replayed : Replayed table (deliverAll sameNumber emissions).buffer sub event :=
      (replayed_deliverAll_iff stored).mpr ⟨buffered, isWanted⟩
    have wouldSend := ((live.wouldSend event).mp replayed).2
    exact (wouldSend_iff.mp wouldSend).2
  · intro passing
    constructor
    · intro event
      rw [replayed_deliverAll_iff stored, wouldSend_iff]
      constructor
      · rintro ⟨buffered, isWanted⟩
        exact ⟨buffered, isWanted, passing event buffered isWanted⟩
      · rintro ⟨buffered, isWanted, -⟩
        exact ⟨buffered, isWanted⟩
    · intro numbered mem active buffered
      rcases event_of_mem mem with ⟨channelEq, dataEq⟩
      rw [replayed_deliverAll_iff stored, mem_sent_iff mem, active.mem_receivers_iff,
        ← channelEq, ← dataEq]
      constructor
      · rintro ⟨-, isWanted⟩
        exact ⟨isWanted, passing numbered.2 buffered isWanted⟩
      · rintro ⟨isWanted, -⟩
        exact ⟨buffered, isWanted⟩

/-- A subscription to the messages of one room. -/
def roomSubscription : EventSubscription where
  id := "sub-files-5"
  serverId := "files"
  channels := ["chat"]
  filter := some (.object [("room", .string "a")])

/-- A message in a room, at a time when a subscription is active. -/
def roomEmission (room : String) : Emission :=
  activeEmission roomSubscription ⟨1, "chat", .object [("room", .string room)], "t"⟩

/-- A table with one subscription. -/
def roomTable : SubscriptionTable :=
  (Keyed.empty EventSubscription.id).insert roomSubscription

/-- Number literals are the same as they are written. -/
def sameLiteral (left right : Number) : Bool :=
  decide (left = right)

/-- An event of another channel about a room that the filter leaves out. -/
def noticeEmission : Emission :=
  activeEmission roomSubscription ⟨2, "notices", .object [("room", .string "b")], "t"⟩

/-- Two messages in the room, and between them what is not on the channel. -/
def roomEmissions : List Emission :=
  [roomEmission "a", noticeEmission, roomEmission "a"]

theorem replayIsLive_iff_room :
    ReplayIsLive sameLiteral roomTable roomEmissions roomSubscription := by
  apply (replayIsLive_iff sameLiteral roomTable roomEmissions roomSubscription rfl).mpr
  intro emission mem onChannel
  have emitted : emission ∈ roomEmissions := List.mem_of_mem_drop mem
  simp only [roomEmissions, List.mem_cons, List.not_mem_nil, or_false] at emitted
  rcases emitted with rfl | rfl | rfl
  · decide +kernel
  · revert onChannel
    decide +kernel
  · decide +kernel

/-- A message in another room is not delivered, and is replayed. -/
theorem not_replayAlwaysLive : ¬ ∀ (sameNumber : Number → Number → Bool)
    (table : SubscriptionTable) (emissions : List Emission) (sub : EventSubscription),
    table.get sub.id = some sub → ReplayIsLive sameNumber table emissions sub := by
  intro live
  have same := (live sameLiteral roomTable [roomEmission "b"] roomSubscription rfl).wouldSend
    ((roomEmission "b").event 1)
  have replayed : Replayed roomTable (deliverAll sameLiteral [roomEmission "b"]).buffer
      roomSubscription ((roomEmission "b").event 1) := by
    apply (replayed_deliverAll_iff rfl).mpr
    exact ⟨List.mem_singleton_self _, by decide +kernel⟩
  have passes := (wouldSend_iff.mp (same.mp replayed).2).2
  revert passes
  decide +kernel

end ClotoCore.Replay
