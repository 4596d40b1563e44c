import ClotoCore.Events.Streams

/-!
# Streams that resume

A stream that reads the history behind the last number its client has seen, and subscribed
before, gets each event that is broadcast.  It gets one twice that is in the history and
still comes, and it gets what is in the history and never broadcast.
-/

namespace ClotoCore.Events.Resume

open ClotoCore.Sequence ClotoCore.Transition

/-! ## Exact resumption -/

/-- A stream has reported no lag, and each event behind a number is still in the history. -/
structure Watched (recorded history : List SequencedEvent) (stream : Stream) (last : Nat) :
    Prop where
  prompt : stream.lagged = false
  kept : ∀ seqEvent ∈ recorded, last < seqEvent.seqId →
    seqEvent.seqId ∈ history.map SequencedEvent.seqId

instance (recorded history : List SequencedEvent) (stream : Stream) (last : Nat) :
    Decidable (Watched recorded history stream last) :=
  decidable_of_iff (stream.lagged = false ∧ ∀ seqEvent ∈ recorded, last < seqEvent.seqId →
    seqEvent.seqId ∈ history.map SequencedEvent.seqId)
    ⟨fun both => ⟨both.1, both.2⟩, fun watched => ⟨watched.prompt, watched.kept⟩⟩

/-- The stream ascends, has each event behind the number that was broadcast, and none that
was withheld. -/
structure Exact (sent : List SequencedEvent) (withheld : List Nat) (stream : Stream)
    (last : Nat) : Prop where
  ascending : Ascending SequencedEvent.seqId stream.events
  complete : stream.closed = false → ∀ seqEvent ∈ sent, last < seqEvent.seqId →
    seqEvent ∈ stream.events
  clean : ∀ seqEvent ∈ stream.events, seqEvent.seqId ∉ withheld

/-- A stream that has resumed and read the history is exact, as long as it is watched. -/
def Resumes (state : State) (stream : Stream) : Prop :=
  stream.replay.isSome = true → ∀ last ∈ stream.lastEventId,
    Watched state.recorded state.history stream last →
      Exact state.sent state.withheld stream last

/-- Every stream resumes where its client left off. -/
def AllExact (state : State) : Prop :=
  ∀ stream ∈ state.streams, Resumes state stream

/-- No stream that is watched has the event of this number, except for closed ones. -/
def Unseen (state : State) (seqId : Nat) (closedToo : Bool) : Prop :=
  ∀ stream ∈ state.streams, stream.replay.isSome = true → ∀ last ∈ stream.lastEventId,
    Watched state.recorded state.history stream last → stream.closed = false ∨ closedToo = true →
      seqId ∉ stream.events.map SequencedEvent.seqId

instance (state : State) (seqId : Nat) (closedToo : Bool) :
    Decidable (Unseen state seqId closedToo) :=
  inferInstanceAs <| Decidable <|
    ∀ stream ∈ state.streams, stream.replay.isSome = true → ∀ last ∈ stream.lastEventId,
      Watched state.recorded state.history stream last → stream.closed = false ∨ closedToo = true →
        seqId ∉ stream.events.map SequencedEvent.seqId

/-- What is broadcast or withheld after dispatch has not been read by a stream. -/
def Settled (state : State) (seqEvent : SequencedEvent) (authorized : Bool) : Prop :=
  match seqEvent.event.data with
  | .actionRequested _ _ => Unseen state seqEvent.seqId !authorized
  | .permissionGranted _ _ => Unseen state seqEvent.seqId true
  | _ => True

instance (state : State) (seqEvent : SequencedEvent) (authorized : Bool) :
    Decidable (Settled state seqEvent authorized) := by
  unfold Settled
  split <;> infer_instance

/-- What keeps the streams exact: of the events that a stream reads in the history none was
withheld, and if there is one then none was broadcast since it subscribed; and an event
that it has read is neither broadcast nor withheld after that. -/
def Timely (state : State) : Label → Prop
  | .read n => ∀ stream ∈ state.streams[n]?, ∀ last ∈ stream.lastEventId,
      Watched state.recorded state.history stream last →
        ∀ seqEvent ∈ state.history, last < seqEvent.seqId →
          stream.queue.length = 0 ∧ seqEvent.seqId ∉ state.withheld
  | .broadcast => ∀ held ∈ state.current, held.seqEvent.event.data.broadcastFirst = true →
      Unseen state held.seqEvent.seqId false
  | .settle authorized _ => ∀ held ∈ state.current, Settled state held.seqEvent authorized
  | .take _ | .record | .cleanup _ | .connect _ | .yield _ | .receive _ | .lag _ _
  | .close _ => True

instance (state : State) : ∀ label, Decidable (Timely state label)
  | .read n => inferInstanceAs <| Decidable <|
      ∀ stream ∈ state.streams[n]?, ∀ last ∈ stream.lastEventId,
        Watched state.recorded state.history stream last →
          ∀ seqEvent ∈ state.history, last < seqEvent.seqId →
            stream.queue.length = 0 ∧ seqEvent.seqId ∉ state.withheld
  | .broadcast => inferInstanceAs <| Decidable <|
      ∀ held ∈ state.current, held.seqEvent.event.data.broadcastFirst = true →
        Unseen state held.seqEvent.seqId false
  | .settle authorized _ => inferInstanceAs <| Decidable <|
      ∀ held ∈ state.current, Settled state held.seqEvent authorized
  | .take _ | .record | .cleanup _ | .connect _ | .yield _ | .receive _ | .lag _ _
  | .close _ => isTrue trivial

/-! ## The processor -/

variable {maxHistorySize n : Nat} {state next : State} {label : Label}
  {seqEvent : SequencedEvent} {stream : Stream} {last : Nat}

/-- The event is the last one that was recorded, and was neither broadcast nor withheld. -/
structure Undecided (recorded sent : List SequencedEvent) (withheld : List Nat)
    (seqEvent : SequencedEvent) : Prop where
  latest : ∃ before, recorded = before ++ [seqEvent] ∧ sent.Sublist before
  notWithheld : seqEvent.seqId ∉ withheld

/-- How the event in the processor's hands stands to those before it. -/
def Held.Fits (state : State) (held : Held) : Prop :=
  match held.stage with
  | .taken => held.seqEvent.seqId < state.nextSeq ∧
      ∀ seqEvent ∈ state.recorded, seqEvent.seqId < held.seqEvent.seqId
  | .recorded => Undecided state.recorded state.sent state.withheld held.seqEvent
  | .dispatched => held.seqEvent.event.data.broadcastFirst = false →
      Undecided state.recorded state.sent state.withheld held.seqEvent

/-- What the processor has done. -/
structure Processed (state : State) : Prop where
  ascending : Ascending SequencedEvent.seqId state.recorded
  below : ∀ seqEvent ∈ state.recorded, seqEvent.seqId < state.nextSeq
  kept : state.history.Sublist state.recorded
  sent : state.sent.Sublist state.recorded
  withheld : ∀ seqId ∈ state.withheld, seqId ∈ state.recorded.map SequencedEvent.seqId
  apart : ∀ seqEvent ∈ state.sent, seqEvent.seqId ∉ state.withheld
  current : ∀ held ∈ state.current, held.Fits state

/-- What a stream has. -/
structure Bound (recorded sent : List SequencedEvent) (stream : Stream) : Prop where
  queued : stream.queue.Sublist sent
  seen : ∀ seqEvent ∈ stream.events, seqEvent ∈ recorded
  unread : stream.replay = none → stream.delivered = []

/-- What every step of the streams keeps. -/
structure Carried (state : State) : Prop where
  processed : Processed state
  bound : ∀ stream ∈ state.streams, Bound state.recorded state.sent stream
  exact : AllExact state

theorem Undecided.lt (undecided : Undecided state.recorded state.sent state.withheld seqEvent)
    (ascending : Ascending SequencedEvent.seqId state.recorded) {other : SequencedEvent}
    (mem : other ∈ state.recorded) (apart : other.seqId ≠ seqEvent.seqId) :
    other.seqId < seqEvent.seqId := by
  rcases undecided.latest with ⟨before, recorded, -⟩
  rw [recorded] at mem ascending
  rcases List.mem_append.mp mem with earlier | same
  · exact (List.pairwise_append.mp ascending).2.2 other earlier seqEvent
      (List.mem_singleton.mpr rfl)
  · exact absurd (congrArg SequencedEvent.seqId (List.mem_singleton.mp same)) apart

theorem Undecided.sublist
    (undecided : Undecided state.recorded state.sent state.withheld seqEvent) :
    (state.sent ++ [seqEvent]).Sublist state.recorded := by
  rcases undecided.latest with ⟨before, recorded, sent⟩
  rw [recorded]
  exact List.Sublist.append sent (List.Sublist.refl _)

theorem Undecided.mem
    (undecided : Undecided state.recorded state.sent state.withheld seqEvent) :
    seqEvent ∈ state.recorded := by
  rcases undecided.latest with ⟨before, recorded, -⟩
  rw [recorded]
  exact List.mem_append_right _ (List.mem_singleton.mpr rfl)

theorem Undecided.not_sent
    (undecided : Undecided state.recorded state.sent state.withheld seqEvent)
    (ascending : Ascending SequencedEvent.seqId state.recorded) {other : SequencedEvent}
    (mem : other ∈ state.sent) : other.seqId ≠ seqEvent.seqId := by
  rcases undecided.latest with ⟨before, recorded, sent⟩
  rw [recorded, ascending_concat_iff] at ascending
  exact Nat.ne_of_lt (ascending.2 other (sent.subset mem))

theorem Processed.take (processed : Processed state) (event : ClotoEvent) :
    Processed (state.take event) := by
  constructor
  case ascending => exact processed.ascending
  case below =>
    intro seqEvent mem
    exact Nat.lt_succ_of_lt (processed.below seqEvent mem)
  case kept => exact processed.kept
  case sent => exact processed.sent
  case withheld => exact processed.withheld
  case apart => exact processed.apart
  case current =>
    rintro held ⟨⟩
    exact ⟨Nat.lt_succ_self _, processed.below⟩

/-- A recorded event comes after all before it, and is neither broadcast nor withheld. -/
theorem Processed.recordEvent (processed : Processed state)
    (held : state.current = some ⟨seqEvent, .taken⟩) :
    Processed (state.recordEvent maxHistorySize seqEvent) := by
  rcases processed.current _ held with ⟨below, after⟩
  constructor
  case ascending =>
    exact ascending_concat_iff.mpr ⟨processed.ascending, after⟩
  case below =>
    intro other mem
    rcases List.mem_append.mp mem with earlier | same
    · exact processed.below other earlier
    · rw [List.mem_singleton.mp same]
      exact below
  case kept =>
    exact (List.drop_sublist _ _).trans (processed.kept.append (List.Sublist.refl _))
  case sent => exact processed.sent.trans (List.sublist_append_left _ _)
  case withheld =>
    intro seqId mem
    have earlier := processed.withheld seqId mem
    rw [State.recordEvent, List.map_append]
    exact List.mem_append_left _ earlier
  case apart => exact processed.apart
  case current =>
    rintro other ⟨⟩
    refine ⟨⟨state.recorded, rfl, processed.sent⟩, ?_⟩
    intro withheld
    rcases List.mem_map.mp (processed.withheld _ withheld) with ⟨other, mem, same⟩
    exact absurd same (Nat.ne_of_lt (after other mem))

theorem Processed.send (processed : Processed state)
    (undecided : Undecided state.recorded state.sent state.withheld seqEvent)
    (settled : ∀ held ∈ state.current, held.Fits (state.send seqEvent)) :
    Processed (state.send seqEvent) where
  ascending := processed.ascending
  below := processed.below
  kept := processed.kept
  sent := undecided.sublist
  withheld := processed.withheld
  apart := by
    intro other mem
    rcases List.mem_append.mp mem with earlier | same
    · exact processed.apart other earlier
    · rw [List.mem_singleton.mp same]
      exact undecided.notWithheld
  current := settled

theorem Processed.withhold (processed : Processed state)
    (undecided : Undecided state.recorded state.sent state.withheld seqEvent)
    (idle : state.current = none) : Processed (state.withhold seqEvent) where
  ascending := processed.ascending
  below := processed.below
  kept := processed.kept
  sent := processed.sent
  withheld := by
    intro seqId mem
    rcases List.mem_append.mp mem with earlier | same
    · exact processed.withheld seqId earlier
    · rw [List.mem_singleton.mp same]
      exact List.mem_map_of_mem undecided.mem
  apart := by
    intro other mem withheld
    rcases List.mem_append.mp withheld with earlier | same
    · exact processed.apart other mem earlier
    · exact undecided.not_sent processed.ascending mem (List.mem_singleton.mp same)
  current := by
    intro held isHeld
    have none : state.current = some held := isHeld
    rw [idle] at none
    cases none

theorem Processed.idle (processed : Processed state) :
    Processed { state with current := none } := by
  refine { processed with current := ?_ }
  intro held isHeld
  cases isHeld

theorem Processed.broadcast (processed : Processed state)
    (held : state.current = some ⟨seqEvent, .recorded⟩) :
    Processed (state.broadcast seqEvent) := by
  have undecided : Undecided state.recorded state.sent state.withheld seqEvent :=
    processed.current _ held
  have dispatched : Processed { state with current := some ⟨seqEvent, .dispatched⟩ } := by
    refine { processed with current := ?_ }
    rintro other ⟨⟩ _
    exact undecided
  unfold State.broadcast
  simp only
  split
  · next first =>
    apply dispatched.send undecided
    rintro other ⟨⟩ second
    rw [first] at second
    cases second
  · exact dispatched

theorem undecided_of_dispatched (processed : Processed state)
    (held : state.current = some ⟨seqEvent, .dispatched⟩)
    (second : seqEvent.event.data.broadcastFirst = false) :
    Undecided state.recorded state.sent state.withheld seqEvent :=
  processed.current _ held second

theorem Processed.settle (processed : Processed state)
    (held : state.current = some ⟨seqEvent, .dispatched⟩) (authorized : Bool)
    (resolution : Resolution) : Processed (state.settle seqEvent authorized resolution) := by
  have idle := processed.idle
  have undecided := undecided_of_dispatched processed held
  have nothing : ∀ held ∈ (none : Option Held),
      held.Fits ({ state with current := none }.send seqEvent) := by
    intro held isHeld
    cases isHeld
  unfold State.settle
  simp only
  split
  · next requester action data =>
    have decidable := undecided (by rw [data]; rfl)
    split
    · exact idle.send decidable nothing
    · exact idle.withhold decidable rfl
  · next pluginId permission data =>
    have decidable := undecided (by rw [data]; rfl)
    exact idle.withhold decidable rfl
  · split
    · exact idle.take _
    · exact idle
  · exact idle

/-! ## The streams -/

theorem events_put (seqEvent : SequencedEvent) (live : stream.closed = false) :
    (stream.put seqEvent).events = stream.events ++ [seqEvent] := by
  rw [Stream.put, if_neg (by rw [live]; exact Bool.false_ne_true)]
  exact (List.append_assoc _ _ _).symm

theorem put_of_closed (seqEvent : SequencedEvent) (closed : stream.closed = true) :
    stream.put seqEvent = stream := by
  rw [Stream.put, if_pos closed]

/-- What an event that is put changes in a stream. -/
theorem put_frame (stream : Stream) (seqEvent : SequencedEvent) :
    (stream.put seqEvent).replay = stream.replay ∧
      (stream.put seqEvent).lastEventId = stream.lastEventId ∧
        (stream.put seqEvent).lagged = stream.lagged ∧
          (stream.put seqEvent).closed = stream.closed ∧
            (stream.put seqEvent).delivered = stream.delivered := by
  unfold Stream.put
  split
  · exact ⟨rfl, rfl, rfl, rfl, rfl⟩
  · exact ⟨rfl, rfl, rfl, rfl, rfl⟩

theorem Bound.put (bound : Bound state.recorded state.sent stream)
    (undecided : Undecided state.recorded state.sent state.withheld seqEvent) :
    Bound state.recorded (state.sent ++ [seqEvent]) (stream.put seqEvent) := by
  cases closed : stream.closed with
  | true =>
      rw [put_of_closed seqEvent closed]
      exact { bound with queued := bound.queued.trans (List.sublist_append_left _ _) }
  | false =>
      constructor
      · have queue : (stream.put seqEvent).queue = stream.queue ++ [seqEvent] := by
          rw [Stream.put, if_neg (by rw [closed]; exact Bool.false_ne_true)]
        rw [queue]
        exact bound.queued.append (List.Sublist.refl _)
      · intro other mem
        rw [events_put seqEvent closed] at mem
        rcases List.mem_append.mp mem with earlier | same
        · exact bound.seen other earlier
        · rw [List.mem_singleton.mp same]
          exact undecided.mem
      · rw [(put_frame stream seqEvent).1, (put_frame stream seqEvent).2.2.2.2]
        exact bound.unread

theorem Bound.recordEvent (bound : Bound state.recorded state.sent stream)
    (seqEvent : SequencedEvent) :
    Bound (state.recorded ++ [seqEvent]) state.sent stream := by
  refine { bound with seen := ?_ }
  intro other mem
  exact List.mem_append_left _ (bound.seen other mem)

/-- A read stream has the events of the history after a number, and then its queue. -/
theorem events_read {after : Stream} (bound : Bound state.recorded state.sent stream)
    (isRead : stream.read state.history = some after) :
    after.events = stream.missed state.history ++ stream.queue := by
  unfold Stream.read at isRead
  split at isRead
  · next unread =>
    cases isRead
    have none := bound.unread unread
    simp only [Stream.events, none, List.nil_append, Option.getD_some]
  · cases isRead

theorem Bound.read {after : Stream} (bound : Bound state.recorded state.sent stream)
    (processed : Processed state)
    (isRead : stream.read state.history = some after) : Bound state.recorded state.sent after := by
  have events := events_read bound isRead
  have inQueue : ∀ seqEvent ∈ stream.queue, seqEvent ∈ state.recorded := by
    intro seqEvent mem
    exact processed.sent.subset (bound.queued.subset mem)
  unfold Stream.read at isRead
  split at isRead
  · cases isRead
    constructor
    · exact bound.queued
    · intro seqEvent mem
      rw [events] at mem
      rcases List.mem_append.mp mem with replayed | queued
      · unfold Stream.missed at replayed
        split at replayed
        · exact processed.kept.subset (List.mem_of_mem_filter replayed)
        · cases replayed
      · exact inQueue seqEvent queued
    · intro unread
      cases unread
  · cases isRead

/-- What a stream yields or receives it had before. -/
theorem events_yield {after : Stream} (yields : stream.yield = some after) :
    after.events = stream.events ∧ after.queue = stream.queue ∧ after.replay.isSome = true ∧
      stream.replay.isSome = true := by
  rcases stream with ⟨lastEventId, replay, queue, delivered, lagged, closed⟩
  cases replay with
  | none => cases yields
  | some replay =>
      cases replay with
      | nil => cases yields
      | cons seqEvent rest =>
          cases yields
          refine ⟨?_, rfl, rfl, rfl⟩
          simp [Stream.events]

theorem events_receive {after : Stream} (receives : stream.receive = some after) :
    after.events = stream.events ∧ after.queue.Sublist stream.queue ∧
      after.replay.isSome = true ∧ stream.replay.isSome = true := by
  rcases stream with ⟨lastEventId, replay, queue, delivered, lagged, closed⟩
  cases replay with
  | none => cases receives
  | some replay =>
      cases replay with
      | cons seqEvent rest => cases receives
      | nil =>
          cases queue with
          | nil => cases receives
          | cons seqEvent rest =>
              cases receives
              refine ⟨?_, List.sublist_cons_self _ _, rfl, rfl⟩
              simp [Stream.events]

theorem events_lag {count : Nat} {after : Stream} (lags : stream.lag count = some after) :
    after.events.Sublist stream.events ∧ after.queue.Sublist stream.queue ∧
      after.replay.isSome = true ∧ after.lagged = true := by
  unfold Stream.lag at lags
  split at lags
  · next read =>
    cases lags
    have queue := List.drop_sublist count stream.queue
    refine ⟨?_, queue, ?_, rfl⟩
    · exact (List.Sublist.refl _).append queue
    · rw [read]
      rfl
  · cases lags

theorem events_close (stream : Stream) : stream.close.events = stream.delivered := by
  simp [Stream.close, Stream.events]

theorem delivered_sublist (stream : Stream) : stream.delivered.Sublist stream.events := by
  unfold Stream.events
  rw [List.append_assoc]
  exact List.sublist_append_left _ _

/-- A stream that has less than before is bound as before. -/
theorem Bound.within {after : Stream} (bound : Bound state.recorded state.sent stream)
    (events : after.events.Sublist stream.events) (queue : after.queue.Sublist stream.queue)
    (read : after.replay.isSome = true) : Bound state.recorded state.sent after := by
  constructor
  · exact queue.trans bound.queued
  · intro seqEvent mem
    exact bound.seen seqEvent (events.subset mem)
  · intro unread
    rw [unread] at read
    cases read

/-! ## What a step does to the streams -/

/-- The streams stay exact where no more of them are watched. -/
theorem AllExact.of_watched (exact : AllExact state) (streams : next.streams = state.streams)
    (sent : next.sent = state.sent) (withheld : next.withheld = state.withheld)
    (watched : ∀ stream last, Watched next.recorded next.history stream last →
      Watched state.recorded state.history stream last) : AllExact next := by
  intro stream mem read last resumed isWatched
  rw [streams] at mem
  rw [sent, withheld]
  exact exact stream mem read last resumed (watched stream last isWatched)

theorem AllExact.recordEvent (exact : AllExact state) (processed : Processed state)
    (held : state.current = some ⟨seqEvent, .taken⟩) :
    AllExact (state.recordEvent maxHistorySize seqEvent) := by
  have after := (processed.current _ held).2
  refine exact.of_watched rfl rfl rfl ?_
  intro stream last watched
  constructor
  · exact watched.prompt
  · intro other mem beyond
    have stays := watched.kept other (List.mem_append_left _ mem) beyond
    rcases List.mem_map.mp stays with ⟨there, inHistory, same⟩
    rcases List.mem_append.mp (List.mem_of_mem_drop inHistory) with before | isNew
    · exact same ▸ List.mem_map_of_mem before
    · rw [List.mem_singleton.mp isNew] at same
      exact absurd same.symm (Nat.ne_of_lt (after other mem))

theorem AllExact.cleanup (exact : AllExact state) (count : Nat) :
    AllExact { state with history := state.history.drop count } := by
  refine exact.of_watched rfl rfl rfl ?_
  intro stream last watched
  constructor
  · exact watched.prompt
  · intro other mem beyond
    rcases List.mem_map.mp (watched.kept other mem beyond) with ⟨there, inHistory, same⟩
    exact same ▸ List.mem_map_of_mem (List.mem_of_mem_drop inHistory)

/-- An event is put behind those of a stream exactly if it is not one of them. -/
theorem Exact.put_iff (exact : Exact state.sent state.withheld stream last)
    (bound : Bound state.recorded state.sent stream)
    (ascending : Ascending SequencedEvent.seqId state.recorded)
    (undecided : Undecided state.recorded state.sent state.withheld seqEvent) :
    Exact (state.sent ++ [seqEvent]) state.withheld (stream.put seqEvent) last ↔
      (stream.closed = false ∨ false = true →
        seqEvent.seqId ∉ stream.events.map SequencedEvent.seqId) := by
  cases closed : stream.closed with
  | true =>
      rw [put_of_closed seqEvent closed]
      constructor
      · rintro - (open' | same)
        · cases open'
        · cases same
      · intro
        refine { exact with complete := ?_ }
        intro live
        rw [closed] at live
        cases live
  | false =>
      have events := events_put seqEvent closed
      constructor
      · intro nextExact _ mem
        have ascends := nextExact.ascending
        rw [events, ascending_concat_iff] at ascends
        rcases List.mem_map.mp mem with ⟨other, there, same⟩
        exact absurd same (Nat.ne_of_lt (ascends.2 other there))
      · intro unseen
        constructor
        · rw [events, ascending_concat_iff]
          refine ⟨exact.ascending, ?_⟩
          intro other mem
          apply undecided.lt ascending (bound.seen other mem)
          intro same
          exact unseen (Or.inl rfl) (same ▸ List.mem_map_of_mem mem)
        · intro _ other mem beyond
          rw [events]
          rcases List.mem_append.mp mem with earlier | same
          · exact List.mem_append_left _ (exact.complete closed other earlier beyond)
          · exact List.mem_append_right _ same
        · intro other mem
          rw [events] at mem
          rcases List.mem_append.mp mem with earlier | same
          · exact exact.clean other earlier
          · rw [List.mem_singleton.mp same]
            exact undecided.notWithheld

theorem Exact.withhold_iff (exact : Exact state.sent state.withheld stream last) :
    Exact state.sent (state.withheld ++ [seqEvent.seqId]) stream last ↔
      (stream.closed = false ∨ true = true →
        seqEvent.seqId ∉ stream.events.map SequencedEvent.seqId) := by
  constructor
  · intro nextExact _ mem
    rcases List.mem_map.mp mem with ⟨other, there, same⟩
    apply nextExact.clean other there
    rw [same]
    exact List.mem_append_right _ (List.mem_singleton.mpr rfl)
  · intro unseen
    refine { exact with clean := ?_ }
    intro other mem withheld
    rcases List.mem_append.mp withheld with earlier | same
    · exact exact.clean other mem earlier
    · apply unseen (Or.inr rfl)
      rw [← List.mem_singleton.mp same]
      exact List.mem_map_of_mem mem

/-- A broadcast keeps the streams exact exactly if none has the event. -/
theorem Carried.send_iff (carried : Carried state)
    (undecided : Undecided state.recorded state.sent state.withheld seqEvent) :
    AllExact (state.send seqEvent) ↔ Unseen state seqEvent.seqId false := by
  have ascending := carried.processed.ascending
  constructor
  · intro exact stream mem read last resumed watched
    have frame := put_frame stream seqEvent
    have there : stream.put seqEvent ∈ (state.send seqEvent).streams := List.mem_map_of_mem mem
    have old := carried.exact stream mem read last resumed watched
    apply (old.put_iff (carried.bound stream mem) ascending undecided).mp
    apply exact (stream.put seqEvent) there (frame.1 ▸ read) last (frame.2.1 ▸ resumed)
    exact ⟨frame.2.2.1 ▸ watched.prompt, watched.kept⟩
  · intro unseen other mem read last resumed watched
    rcases List.mem_map.mp mem with ⟨stream, there, rfl⟩
    have frame := put_frame stream seqEvent
    rw [frame.1] at read
    rw [frame.2.1] at resumed
    have earlier : Watched state.recorded state.history stream last :=
      ⟨frame.2.2.1 ▸ watched.prompt, watched.kept⟩
    have old := carried.exact stream there read last resumed earlier
    apply (old.put_iff (carried.bound stream there) ascending undecided).mpr
    exact unseen stream there read last resumed earlier

theorem Carried.withhold_iff (carried : Carried state) :
    AllExact (state.withhold seqEvent) ↔ Unseen state seqEvent.seqId true := by
  constructor
  · intro exact stream mem read last resumed watched
    have old := carried.exact stream mem read last resumed watched
    exact old.withhold_iff.mp (exact stream mem read last resumed watched)
  · intro unseen stream mem read last resumed watched
    have old := carried.exact stream mem read last resumed watched
    exact old.withhold_iff.mpr (unseen stream mem read last resumed watched)

/-- Only the stream that makes a step is looked at. -/
theorem AllExact.set_iff {after : Stream} (exact : AllExact state)
    (there : state.streams[n]? = some stream) :
    AllExact { state with streams := state.streams.set n after } ↔ Resumes state after := by
  have within : n < state.streams.length := (List.getElem?_eq_some_iff.mp there).1
  constructor
  · intro nextExact
    exact nextExact after (List.mem_set within after)
  · intro resumes other mem
    rcases List.mem_or_eq_of_mem_set mem with before | rfl
    · exact exact other before
    · exact resumes

/-- A stream that has less than before, or the same as long as it is open, stays exact. -/
theorem Resumes.within {after : Stream} (resumes : Resumes state stream)
    (events : after.events.Sublist stream.events) (read : stream.replay.isSome = true)
    (last : after.lastEventId = stream.lastEventId) (lagged : after.lagged = stream.lagged)
    (live : after.closed = false → after.events = stream.events ∧ stream.closed = false) :
    Resumes state after := by
  intro _ number resumed watched
  rw [last] at resumed
  have exact := resumes read number resumed ⟨lagged ▸ watched.prompt, watched.kept⟩
  constructor
  · exact List.Pairwise.sublist events exact.ascending
  · intro open'
    rw [(live open').1]
    exact exact.complete (live open').2
  · intro seqEvent mem
    exact exact.clean seqEvent (events.subset mem)

theorem frame_yield {after : Stream} (yields : stream.yield = some after) :
    after.lastEventId = stream.lastEventId ∧ after.lagged = stream.lagged ∧
      after.closed = stream.closed := by
  unfold Stream.yield at yields
  split at yields
  · cases yields
    exact ⟨rfl, rfl, rfl⟩
  · cases yields

theorem frame_receive {after : Stream} (receives : stream.receive = some after) :
    after.lastEventId = stream.lastEventId ∧ after.lagged = stream.lagged ∧
      after.closed = stream.closed := by
  unfold Stream.receive at receives
  split at receives
  · cases receives
    exact ⟨rfl, rfl, rfl⟩
  · cases receives

theorem resumes_close (resumes : Resumes state stream)
    (bound : Bound state.recorded state.sent stream) : Resumes state stream.close := by
  cases read : stream.replay with
  | some replay =>
      have less : stream.close.events.Sublist stream.events := by
        rw [events_close]
        exact delivered_sublist stream
      refine resumes.within less (by rw [read]; rfl) rfl rfl ?_
      intro live
      cases live
  | none =>
      have events : stream.close.events = [] := by
        rw [events_close]
        exact bound.unread read
      intro _ last _ _
      constructor
      · rw [events]
        exact List.Pairwise.nil
      · intro live
        cases live
      · intro seqEvent mem
        rw [events] at mem
        cases mem

theorem frame_read {after : Stream} {history : List SequencedEvent}
    (isRead : stream.read history = some after) :
    after.lastEventId = stream.lastEventId ∧ after.lagged = stream.lagged ∧
      after.replay.isSome = true := by
  unfold Stream.read at isRead
  split at isRead
  · cases isRead
    exact ⟨rfl, rfl, rfl⟩
  · cases isRead

theorem mem_missed_iff {history : List SequencedEvent} (resumed : last ∈ stream.lastEventId) :
    seqEvent ∈ stream.missed history ↔ seqEvent ∈ history ∧ last < seqEvent.seqId := by
  have known : stream.lastEventId = some last := resumed
  unfold Stream.missed
  rw [known]
  simp only [List.mem_filter, decide_eq_true_eq]

/-- What is read in the history comes before what was received, exactly if there is nothing
of one of them and nothing read was withheld. -/
theorem Carried.read_iff {after : Stream} (carried : Carried state)
    (bound : Bound state.recorded state.sent stream)
    (isRead : stream.read state.history = some after) :
    Resumes state after ↔ ∀ last ∈ stream.lastEventId,
      Watched state.recorded state.history stream last →
        ∀ seqEvent ∈ state.history, last < seqEvent.seqId →
          stream.queue.length = 0 ∧ seqEvent.seqId ∉ state.withheld := by
  have processed := carried.processed
  have events := events_read bound isRead
  rcases frame_read isRead with ⟨sameLast, sameLagged, read⟩
  constructor
  · intro resumes last resumed watched seqEvent mem beyond
    have exact := resumes read last (sameLast ▸ resumed)
      ⟨sameLagged ▸ watched.prompt, watched.kept⟩
    have missed : seqEvent ∈ stream.missed state.history :=
      (mem_missed_iff resumed).mpr ⟨mem, beyond⟩
    have ascending := exact.ascending
    rw [events] at ascending
    constructor
    · rw [List.length_eq_zero_iff, List.eq_nil_iff_forall_not_mem]
      intro queued queuedMem
      -- what was received is in the history as well, and comes twice
      have behind := (List.pairwise_append.mp ascending).2.2 seqEvent missed queued queuedMem
      have recorded := processed.sent.subset (bound.queued.subset queuedMem)
      rcases List.mem_map.mp (watched.kept queued recorded (Nat.lt_trans beyond behind)) with
        ⟨other, inHistory, sameId⟩
      have also : queued ∈ stream.missed state.history := by
        rw [← processed.ascending.eq_of_number (processed.kept.subset inHistory) recorded sameId]
        exact (mem_missed_iff resumed).mpr ⟨inHistory, sameId ▸ Nat.lt_trans beyond behind⟩
      exact Nat.lt_irrefl _ ((List.pairwise_append.mp ascending).2.2 queued also queued queuedMem)
    · apply exact.clean seqEvent
      rw [events]
      exact List.mem_append_left _ missed
  · intro timely _ last resumed watched
    rw [sameLast] at resumed
    have early : Watched state.recorded state.history stream last :=
      ⟨sameLagged ▸ watched.prompt, watched.kept⟩
    have clear := timely last resumed early
    have queue : Ascending SequencedEvent.seqId stream.queue :=
      processed.ascending.sublist (bound.queued.trans processed.sent)
    have history : Ascending SequencedEvent.seqId state.history :=
      processed.ascending.sublist processed.kept
    constructor
    · rw [events]
      apply List.pairwise_append.mpr
      refine ⟨?_, queue, ?_⟩
      · have known : stream.lastEventId = some last := resumed
        unfold Stream.missed
        rw [known]
        exact history.filter _
      · intro missed mem queued queuedMem
        rcases (mem_missed_iff resumed).mp mem with ⟨inHistory, beyond⟩
        have empty := List.length_eq_zero_iff.mp (clear missed inHistory beyond).1
        rw [empty] at queuedMem
        cases queuedMem
    · intro _ seqEvent mem beyond
      have recorded := processed.sent.subset mem
      rcases List.mem_map.mp (watched.kept seqEvent recorded beyond) with
        ⟨other, inHistory, sameId⟩
      rw [events,
        ← processed.ascending.eq_of_number (processed.kept.subset inHistory) recorded sameId]
      exact List.mem_append_left _ ((mem_missed_iff resumed).mpr ⟨inHistory, sameId ▸ beyond⟩)
    · intro seqEvent mem
      rw [events] at mem
      rcases List.mem_append.mp mem with replayed | queued
      · rcases (mem_missed_iff resumed).mp replayed with ⟨inHistory, beyond⟩
        exact (clear seqEvent inHistory beyond).2
      · exact processed.apart seqEvent (bound.queued.subset queued)

/-! ## Runs -/

/-- What holds after a step whatever the streams are. -/
structure Sound (state : State) : Prop where
  processed : Processed state
  bound : ∀ stream ∈ state.streams, Bound state.recorded state.sent stream

theorem Carried.sound (carried : Carried state) : Sound state :=
  ⟨carried.processed, carried.bound⟩

theorem Sound.recordEvent (sound : Sound state)
    (held : state.current = some ⟨seqEvent, .taken⟩) :
    Sound (state.recordEvent maxHistorySize seqEvent) where
  processed := sound.processed.recordEvent held
  bound := fun stream mem => (sound.bound stream mem).recordEvent seqEvent

theorem bound_send (bound : ∀ stream ∈ state.streams, Bound state.recorded state.sent stream)
    (undecided : Undecided state.recorded state.sent state.withheld seqEvent) :
    ∀ stream ∈ (state.send seqEvent).streams,
      Bound state.recorded (state.sent ++ [seqEvent]) stream := by
  intro other mem
  rcases List.mem_map.mp mem with ⟨stream, there, rfl⟩
  exact (bound stream there).put undecided

theorem Sound.broadcast (sound : Sound state)
    (held : state.current = some ⟨seqEvent, .recorded⟩) : Sound (state.broadcast seqEvent) := by
  constructor
  · exact sound.processed.broadcast held
  · unfold State.broadcast
    simp only
    split
    · exact bound_send sound.bound (sound.processed.current _ held)
    · exact sound.bound

theorem Sound.settle (sound : Sound state)
    (held : state.current = some ⟨seqEvent, .dispatched⟩) (authorized : Bool)
    (resolution : Resolution) : Sound (state.settle seqEvent authorized resolution) := by
  have undecided := undecided_of_dispatched sound.processed held
  constructor
  · exact sound.processed.settle held authorized resolution
  · unfold State.settle
    simp only
    split
    · next requester action data =>
      have second : seqEvent.event.data.broadcastFirst = false := by
        rw [data]
        rfl
      split
      · exact bound_send sound.bound (undecided second)
      · exact sound.bound
    · exact sound.bound
    · split
      · exact sound.bound
      · exact sound.bound
    · exact sound.bound

theorem Sound.set {after : Stream} (sound : Sound state)
    (bound : Bound state.recorded state.sent after) :
    Sound { state with streams := state.streams.set n after } := by
  constructor
  · exact { sound.processed with }
  · intro other mem
    rcases List.mem_or_eq_of_mem_set mem with before | rfl
    · exact sound.bound other before
    · exact bound

theorem Sound.connect (sound : Sound state) (lastEventId : Option Nat) :
    Sound { state with streams := state.streams ++ [.opened lastEventId] } := by
  constructor
  · exact { sound.processed with }
  · intro other mem
    rcases List.mem_append.mp mem with before | isNew
    · exact sound.bound other before
    · rw [List.mem_singleton.mp isNew]
      constructor
      · exact List.nil_sublist _
      · intro seqEvent none
        cases none
      · intro
        rfl

/-- What broadcasting, or not, does to the streams. -/
theorem Carried.broadcast_iff (carried : Carried state)
    (held : state.current = some ⟨seqEvent, .recorded⟩) :
    AllExact (state.broadcast seqEvent) ↔ Timely state .broadcast := by
  have undecided := carried.processed.current _ held
  have timely : Timely state .broadcast ↔
      (seqEvent.event.data.broadcastFirst = true → Unseen state seqEvent.seqId false) := by
    unfold Timely
    rw [held]
    constructor
    · intro unseen
      exact unseen _ rfl
    · rintro unseen _ ⟨⟩
      exact unseen
  rw [timely]
  unfold State.broadcast
  simp only
  split
  · next first =>
    constructor
    · intro exact _
      exact (carried.send_iff undecided).mp exact
    · intro unseen
      exact (carried.send_iff undecided).mpr (unseen first)
  · next second =>
    constructor
    · intro _ first
      exact absurd first second
    · intro
      exact carried.exact

theorem Carried.settle_iff (carried : Carried state)
    (held : state.current = some ⟨seqEvent, .dispatched⟩) (authorized : Bool)
    (resolution : Resolution) :
    AllExact (state.settle seqEvent authorized resolution) ↔
      Timely state (.settle authorized resolution) := by
  have timely : Timely state (.settle authorized resolution) ↔
      Settled state seqEvent authorized := by
    unfold Timely
    rw [held]
    constructor
    · intro settled
      exact settled _ rfl
    · rintro settled _ ⟨⟩
      exact settled
  have undecided := undecided_of_dispatched carried.processed held
  rw [timely]
  unfold State.settle
  unfold Settled
  simp only
  split
  · next requester action data =>
    have second : seqEvent.event.data.broadcastFirst = false := by
      rw [data]
      rfl
    simp only [data]
    cases authorized with
    | true => exact carried.send_iff (undecided second)
    | false => exact carried.withhold_iff
  · next pluginId permission data =>
    simp only [data]
    exact carried.withhold_iff
  · next callbackId serverId callbackType message metadata data =>
    simp only [data]
    split
    · exact ⟨fun _ => trivial, fun _ => carried.exact⟩
    · exact ⟨fun _ => trivial, fun _ => carried.exact⟩
  · next notAction notPermission notCallback =>
    constructor
    · intro
      split
      · next requester action data => exact absurd data (notAction requester action)
      · next pluginId permission data => exact absurd data (notPermission pluginId permission)
      · trivial
    · intro
      exact carried.exact

/-- A step leaves what was done in order, and the streams exact exactly if it is timely. -/
theorem Carried.step_iff (carried : Carried state)
    (stepEq : step maxHistorySize state label = some next) :
    Sound next ∧ (AllExact next ↔ Timely state label) := by
  have sound := carried.sound
  have always : ∀ {exact : Prop}, exact → (exact ↔ True) := fun exact =>
    ⟨fun _ => trivial, fun _ => exact⟩
  cases label with
  | take event =>
      simp only [step] at stepEq
      split at stepEq
      · cases stepEq
        exact ⟨⟨carried.processed.take event, carried.bound⟩, always carried.exact⟩
      · cases stepEq
  | record =>
      simp only [step] at stepEq
      split at stepEq
      · next seqEvent held =>
        cases stepEq
        exact ⟨sound.recordEvent held, always (carried.exact.recordEvent carried.processed held)⟩
      · cases stepEq
  | broadcast =>
      simp only [step] at stepEq
      split at stepEq
      · next seqEvent held =>
        cases stepEq
        exact ⟨sound.broadcast held, carried.broadcast_iff held⟩
      · cases stepEq
  | settle authorized resolution =>
      simp only [step] at stepEq
      split at stepEq
      · next seqEvent held =>
        cases stepEq
        exact ⟨sound.settle held authorized resolution,
          carried.settle_iff held authorized resolution⟩
      · cases stepEq
  | cleanup count =>
      cases stepEq
      refine ⟨⟨?_, carried.bound⟩, always (carried.exact.cleanup count)⟩
      have kept := (List.drop_sublist count state.history).trans carried.processed.kept
      exact { carried.processed with kept := kept }
  | connect lastEventId =>
      cases stepEq
      refine ⟨sound.connect lastEventId, always ?_⟩
      intro stream mem read
      rcases List.mem_append.mp mem with before | isNew
      · exact carried.exact stream before read
      · rw [List.mem_singleton.mp isNew] at read
        cases read
  | read n =>
      rcases Option.bind_eq_some_iff.mp stepEq with ⟨stream, there, mapped⟩
      rcases Option.map_eq_some_iff.mp mapped with ⟨after, isRead, rfl⟩
      have bound := carried.bound stream (List.mem_of_getElem? there)
      refine ⟨sound.set (bound.read carried.processed isRead), ?_⟩
      rw [carried.exact.set_iff there, carried.read_iff bound isRead]
      constructor
      · intro timely other isOther
        cases there.symm.trans isOther
        exact timely
      · intro timely
        exact timely stream there
  | yield n =>
      rcases Option.bind_eq_some_iff.mp stepEq with ⟨stream, there, mapped⟩
      rcases Option.map_eq_some_iff.mp mapped with ⟨after, yields, rfl⟩
      have bound := carried.bound stream (List.mem_of_getElem? there)
      rcases events_yield yields with ⟨events, queue, isRead, read⟩
      rcases frame_yield yields with ⟨sameLast, sameLagged, sameClosed⟩
      have within : after.events.Sublist stream.events := events ▸ List.Sublist.refl _
      refine ⟨sound.set (bound.within within (queue ▸ List.Sublist.refl _) isRead), always ?_⟩
      apply (carried.exact.set_iff there).mpr
      have resumes := carried.exact stream (List.mem_of_getElem? there)
      exact resumes.within within read sameLast sameLagged fun live => ⟨events, sameClosed ▸ live⟩
  | receive n =>
      rcases Option.bind_eq_some_iff.mp stepEq with ⟨stream, there, mapped⟩
      rcases Option.map_eq_some_iff.mp mapped with ⟨after, receives, rfl⟩
      have bound := carried.bound stream (List.mem_of_getElem? there)
      rcases events_receive receives with ⟨events, queue, isRead, read⟩
      rcases frame_receive receives with ⟨sameLast, sameLagged, sameClosed⟩
      have within : after.events.Sublist stream.events := events ▸ List.Sublist.refl _
      refine ⟨sound.set (bound.within within queue isRead), always ?_⟩
      apply (carried.exact.set_iff there).mpr
      have resumes := carried.exact stream (List.mem_of_getElem? there)
      exact resumes.within within read sameLast sameLagged fun live => ⟨events, sameClosed ▸ live⟩
  | lag n count =>
      rcases Option.bind_eq_some_iff.mp stepEq with ⟨stream, there, mapped⟩
      rcases Option.map_eq_some_iff.mp mapped with ⟨after, lags, rfl⟩
      have bound := carried.bound stream (List.mem_of_getElem? there)
      rcases events_lag lags with ⟨events, queue, isRead, lagged⟩
      refine ⟨sound.set (bound.within events queue isRead), always ?_⟩
      apply (carried.exact.set_iff there).mpr
      intro _ last _ watched
      have prompt := watched.prompt
      rw [lagged] at prompt
      cases prompt
  | close n =>
      rcases Option.bind_eq_some_iff.mp stepEq with ⟨stream, there, mapped⟩
      cases mapped
      have bound := carried.bound stream (List.mem_of_getElem? there)
      have within : stream.close.events.Sublist stream.events := by
        rw [events_close]
        exact delivered_sublist stream
      refine ⟨sound.set (bound.within within (List.nil_sublist _) rfl), always ?_⟩
      apply (carried.exact.set_iff there).mpr
      exact resumes_close (carried.exact stream (List.mem_of_getElem? there)) bound

theorem carried_init : Carried .init := by
  constructor
  · constructor
    case ascending => exact List.Pairwise.nil
    case below =>
      intro seqEvent mem
      cases mem
    case kept => exact List.Sublist.refl _
    case sent => exact List.Sublist.refl _
    case withheld =>
      intro seqId mem
      cases mem
    case apart =>
      intro seqEvent mem
      cases mem
    case current =>
      intro held isHeld
      cases isHeld
  · intro stream mem
    cases mem
  · intro stream mem
    cases mem

/-- Streams resume exactly throughout a run exactly if every step is timely. -/
theorem allExact_throughout_iff {labels : List Label} {target : State}
    (ran : run (step maxHistorySize) .init labels = some target) :
    (∀ count middle, run (step maxHistorySize) .init (labels.take count) = some middle →
      AllExact middle) ↔ Along (step maxHistorySize) Timely .init labels := by
  have holds : ∀ ⦃state⦄, Carried state → AllExact state := fun _ carried => carried.exact
  apply throughout_iff_along_of holds _ _ carried_init ran
  · intro state label next carried timely stepEq
    rcases carried.step_iff stepEq with ⟨sound, exact⟩
    exact ⟨sound.processed, sound.bound, exact.mpr timely⟩
  · intro state label next carried stepEq exact
    exact (carried.step_iff stepEq).2.mp exact

/-- An event that the processor only broadcasts. -/
def note : ClotoEvent where
  traceId := 0
  data := .other "note"

/-- An action that the processor asks about. -/
def action : ClotoEvent where
  traceId := 0
  data := .actionRequested 1 .captureScreen

/-- What the arms of the processor obtain in these runs. -/
def resolution : Resolution where
  now := 0
  messageId := ""
  targetAgentId := ""
  agentName := ""
  engineId := ""

/-- An event is broadcast, a client that has seen nothing reads it, and another event comes. -/
def resumedRun : List Label :=
  [.take note, .record, .broadcast, .settle true resolution, .connect (some 0), .read 0, .yield 0,
    .take note, .record, .broadcast, .receive 0]

theorem allExact_resumedRun :
    ∃ target, run (step 10) .init resumedRun = some target ∧
      target.streams.map (fun stream => stream.delivered.map SequencedEvent.seqId) = [[1, 2]] ∧
        ∀ count middle, run (step 10) .init (resumedRun.take count) = some middle →
          AllExact middle := by
  have runs : (run (step 10) .init resumedRun).map (fun target =>
      target.streams.map fun stream => stream.delivered.map SequencedEvent.seqId)
        = some [[1, 2]] := by decide +kernel
  rcases Option.map_eq_some_iff.mp runs with ⟨target, ran, delivered⟩
  exact ⟨target, ran, delivered, (allExact_throughout_iff ran).mpr (by decide +kernel)⟩

/-- A stream that has yielded events of these numbers, resumed from the start and watched. -/
def yielded (state : State) (seqIds : List Nat) (stream : Stream) : Bool :=
  decide (stream.lastEventId = some 0 ∧ stream.replay.isSome = true ∧
    Watched state.recorded state.history stream 0) &&
      stream.delivered.map SequencedEvent.seqId == seqIds

theorem exact_of_yielded {seqIds : List Nat} (exact : AllExact state)
    (some : state.streams.any (yielded state seqIds) = true) :
    seqIds.Pairwise (· < ·) ∧ ∀ seqId ∈ seqIds, seqId ∉ state.withheld := by
  rcases List.any_eq_true.mp some with ⟨stream, mem, found⟩
  rcases Bool.and_eq_true_iff.mp found with ⟨watched, delivered⟩
  rcases of_decide_eq_true watched with ⟨resumed, read, isWatched⟩
  have streamExact := exact stream mem read 0 resumed isWatched
  rw [← eq_of_beq delivered]
  constructor
  · exact List.pairwise_map.mpr (streamExact.ascending.sublist (delivered_sublist stream))
  · intro seqId there
    rcases List.mem_map.mp there with ⟨seqEvent, inDelivered, rfl⟩
    exact streamExact.clean seqEvent ((delivered_sublist stream).subset inDelivered)

/-- An event is broadcast between the subscription of a stream and its reading. -/
def overlappingRun : List Label :=
  [.connect (some 0), .take note, .record, .broadcast, .read 0, .yield 0, .receive 0]

/-- An action is refused, and a stream reads the history. -/
def refusedRun : List Label :=
  [.take action, .record, .broadcast, .settle false resolution, .connect (some 0), .read 0,
    .yield 0]

/-- A stream yields an event twice, and one that was withheld. -/
theorem resumed_twice_and_refused :
    (∃ target, run (step 10) .init overlappingRun = some target ∧
      target.streams.any (yielded target [1, 1]) = true ∧ ¬ AllExact target) ∧
    ∃ target, run (step 10) .init refusedRun = some target ∧ target.withheld = [1] ∧
      target.streams.any (yielded target [1]) = true ∧ ¬ AllExact target := by
  constructor
  · have runs : (run (step 10) .init overlappingRun).map (fun target =>
        target.streams.any (yielded target [1, 1])) = some true := by decide +kernel
    rcases Option.map_eq_some_iff.mp runs with ⟨target, ran, twice⟩
    refine ⟨target, ran, twice, ?_⟩
    intro exact
    have ascending := (exact_of_yielded exact twice).1
    revert ascending
    decide
  · have runs : (run (step 10) .init refusedRun).map (fun target =>
        (target.withheld, target.streams.any (yielded target [1]))) = some ([1], true) := by
      decide +kernel
    rcases Option.map_eq_some_iff.mp runs with ⟨target, ran, both⟩
    have withheld : target.withheld = [1] := congrArg Prod.fst both
    have once : target.streams.any (yielded target [1]) = true := congrArg Prod.snd both
    refine ⟨target, ran, withheld, once, ?_⟩
    intro exact
    apply (exact_of_yielded exact once).2 1 (List.mem_singleton.mpr rfl)
    rw [withheld]
    exact List.mem_singleton.mpr rfl

end ClotoCore.Events.Resume
