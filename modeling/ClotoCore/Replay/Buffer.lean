import ClotoCore.Json.Value
import ClotoCore.Sequence.Numbered
import ClotoCore.Transition.Run

/-!
# The buffer of events and its pages

An event takes its number before the buffer is locked and enters it afterwards, so
another one can overtake it.  A subscriber asks for pages of the events behind the
last number that it received.
-/

namespace ClotoCore.Replay

open ClotoCore.Json ClotoCore.Sequence ClotoCore.Transition

/-! ## Buffering and replay -/

/-- `BufferedEvent` -/
structure BufferedEvent where
  seq : Nat
  channel : String
  data : Value
  timestamp : String

/-- `MAX_BUFFER_SIZE` -/
def maxBufferSize : Nat := 1000

/-- How many events are evicted from the front of a buffer. -/
def excess (buffer : List BufferedEvent) : Nat :=
  buffer.length - maxBufferSize

/-- One of the channels is the event's, or stands for all. -/
def matchesChannels (channels : List String) (channel : String) : Bool :=
  channels.any fun wanted => wanted == channel || wanted == "*"

/-- `replay_events` -/
def replayEvents (buffer : List BufferedEvent) (afterSeq limit : Nat)
    (channels : Option (List String)) : List BufferedEvent :=
  ((buffer.filter fun event => decide (afterSeq < event.seq)).filter fun event =>
    channels.all fun wanted => matchesChannels wanted event.channel).take limit

/-- `min_buffered_seq`: the number of the event in front. -/
def minBufferedSeq (buffer : List BufferedEvent) : Option Nat :=
  buffer.head?.map BufferedEvent.seq

/-- The events of an answer of `replay`. -/
structure Page where
  events : List BufferedEvent
  hasMore : Bool

/-- The limit of a page. -/
def pageLimit (limit : Option Nat) : Nat :=
  min (limit.getD 100) 1000

/-- The page of `replay`, for a subscription with these channels. -/
def readPage (buffer : List BufferedEvent) (channels : List String) (afterSeq : Nat)
    (limit : Option Nat) : Page :=
  let events := replayEvents buffer afterSeq (pageLimit limit + 1) (some channels)
  { events := events.take (pageLimit limit)
    hasMore := decide (pageLimit limit < events.length) }

/-- The flag of `replay`; the buffer is locked once more for it. -/
def isTruncated (buffer : List BufferedEvent) (afterSeq : Nat) : Bool :=
  decide (0 < afterSeq) &&
    (minBufferedSeq buffer).any fun least => decide (afterSeq + 1 < least)

/-! ## Runs -/

/-- What an answer said of truncation, and what had been evicted then. -/
structure Report where
  afterSeq : Nat
  truncated : Bool
  evicted : List BufferedEvent

/-- The numbers taken, the events that have theirs and are not in the buffer yet, the
buffer and what was evicted from it, and one subscriber: the last number and the
events that it received, and the number behind which it has read a page whose flag
is still to be read. -/
structure Feed where
  eventSeq : Nat
  underWay : List BufferedEvent
  buffer : List BufferedEvent
  evicted : List BufferedEvent
  cursor : Nat
  received : List BufferedEvent
  asked : Option Nat
  reports : List Report

/-- Nothing has happened yet. -/
def Feed.start : Feed where
  eventSeq := 0
  underWay := []
  buffer := []
  evicted := []
  cursor := 0
  received := []
  asked := none
  reports := []

/-- The two halves of `buffer_event`, and the two of `replay`. -/
inductive FeedAction where
  | number (channel : String) (data : Value) (timestamp : String)
  | insert (seq : Nat)
  | page (limit : Option Nat)
  | flag

/-- An event takes the next number. -/
def Feed.number (feed : Feed) (channel : String) (data : Value) (timestamp : String) : Feed :=
  { feed with
    eventSeq := feed.eventSeq + 1
    underWay := feed.underWay ++ [⟨feed.eventSeq + 1, channel, data, timestamp⟩] }

/-- An event enters the buffer, and the oldest ones leave it. -/
def Feed.insert (feed : Feed) (event : BufferedEvent) : Feed :=
  { feed with
    underWay := feed.underWay.eraseP fun other => other.seq == event.seq
    buffer := (feed.buffer ++ [event]).drop (excess (feed.buffer ++ [event]))
    evicted := feed.evicted ++ (feed.buffer ++ [event]).take (excess (feed.buffer ++ [event])) }

/-- The subscriber reads a page behind the last number that it received. -/
def Feed.page (feed : Feed) (channels : List String) (limit : Option Nat) : Feed :=
  let events := (readPage feed.buffer channels feed.cursor limit).events
  { feed with
    cursor := (events.getLast?.map BufferedEvent.seq).getD feed.cursor
    received := feed.received ++ events
    asked := some feed.cursor }

/-- The flag of the page is read. -/
def Feed.flag (feed : Feed) (afterSeq : Nat) : Feed :=
  { feed with
    asked := none
    reports := feed.reports ++ [⟨afterSeq, isTruncated feed.buffer afterSeq, feed.evicted⟩] }

/-- One step. -/
def feedStep (channels : List String) : Action Feed FeedAction
  | feed, .number channel data timestamp => some (feed.number channel data timestamp)
  | feed, .insert seq => (feed.underWay.find? fun event => event.seq == seq).map feed.insert
  | feed, .page limit => if feed.asked = none then some (feed.page channels limit) else none
  | feed, .flag => feed.asked.map feed.flag

/-! ## Exact pages -/

/-- Whether a subscriber of these channels wants an event. -/
def wanted (channels : List String) (event : BufferedEvent) : Bool :=
  matchesChannels channels event.channel

/-- An event beyond the number has been evicted. -/
def Report.Lost (report : Report) : Prop :=
  ∃ event ∈ report.evicted, report.afterSeq < event.seq

/-- An event beyond the number has been evicted, and the page was not one from the start. -/
def Report.LostBehind (report : Report) : Prop :=
  0 < report.afterSeq ∧ report.Lost

/-- What a subscriber is owed: its events ascend, those that it wants and that are
still buffered are among them up to the last one, a page that is not followed by
more leaves none out, and truncation is reported exactly where it is owed. -/
structure Exact (owed : Report → Prop) (channels : List String) (feed : Feed) : Prop where
  ascending : Ascending BufferedEvent.seq feed.received
  wanted : ∀ event ∈ feed.received, wanted channels event = true
  complete : ∀ event ∈ feed.buffer, Replay.wanted channels event = true →
    event.seq ≤ feed.cursor → event ∈ feed.received
  drained : ∀ limit, (readPage feed.buffer channels feed.cursor limit).hasMore = false →
    ∀ event ∈ feed.buffer, Replay.wanted channels event = true →
      event ∈ feed.received ++ (readPage feed.buffer channels feed.cursor limit).events
  truncation : ∀ report ∈ feed.reports, report.truncated = true ↔ owed report

/-- A step in which no event is overtaken. -/
def InOrder (feed : Feed) : FeedAction → Prop
  | .insert seq => ∀ event ∈ feed.underWay, seq ≤ event.seq
  | _ => True

instance (feed : Feed) : (action : FeedAction) → Decidable (InOrder feed action)
  | .insert seq => inferInstanceAs (Decidable (∀ event ∈ feed.underWay, seq ≤ event.seq))
  | .number _ _ _ => isTrue trivial
  | .page _ => isTrue trivial
  | .flag => isTrue trivial

/-! ## Pages of a buffer -/

/-- The events behind a number that a subscriber wants. -/
def waiting (buffer : List BufferedEvent) (channels : List String) (afterSeq : Nat) :
    List BufferedEvent :=
  (buffer.filter fun event => decide (afterSeq < event.seq)).filter (wanted channels)

section Pages

variable {buffer evicted : List BufferedEvent} {channels : List String} {afterSeq count : Nat}
  {limit : Option Nat} {event : BufferedEvent}

theorem mem_waiting_iff : event ∈ waiting buffer channels afterSeq ↔
    event ∈ buffer ∧ wanted channels event = true ∧ afterSeq < event.seq := by
  simp [waiting]

theorem length_waiting_le : (waiting buffer channels afterSeq).length ≤ buffer.length :=
  Nat.le_trans (List.length_filter_le _ _) (List.length_filter_le _ _)

theorem replayEvents_eq (limit : Nat) :
    replayEvents buffer afterSeq limit (some channels) =
      (waiting buffer channels afterSeq).take limit :=
  rfl

/-- A page is the first of the events that wait. -/
theorem readPage_events : (readPage buffer channels afterSeq limit).events =
    (waiting buffer channels afterSeq).take (pageLimit limit) := by
  simp only [readPage, replayEvents_eq, List.take_take]
  congr 1
  omega

theorem readPage_hasMore : (readPage buffer channels afterSeq limit).hasMore = false ↔
    (waiting buffer channels afterSeq).length ≤ pageLimit limit := by
  simp only [readPage, replayEvents_eq, List.length_take, decide_eq_false_iff_not]
  omega

/-- Where a page is not followed by more, every event that waits is on it. -/
theorem mem_events_of_drained
    (last : (readPage buffer channels afterSeq limit).hasMore = false)
    (mem : event ∈ waiting buffer channels afterSeq) :
    event ∈ (readPage buffer channels afterSeq limit).events := by
  rw [readPage_events, List.take_of_length_le (readPage_hasMore.mp last)]
  exact mem

theorem Numbered.ascending_waiting {underWay : List BufferedEvent}
    (numbered : Numbered BufferedEvent.seq (evicted ++ buffer ++ underWay) count) :
    Ascending BufferedEvent.seq (waiting buffer channels afterSeq) := by
  have all := numbered.ascending
  have inBuffer := (List.pairwise_append.mp (List.pairwise_append.mp all).1).2.1
  exact (Ascending.filter inBuffer _).filter _

theorem ascending_events {underWay : List BufferedEvent}
    (numbered : Numbered BufferedEvent.seq (evicted ++ buffer ++ underWay) count) :
    Ascending BufferedEvent.seq (readPage buffer channels afterSeq limit).events := by
  rw [readPage_events]
  exact List.Pairwise.sublist (List.take_sublist _ _) (Numbered.ascending_waiting numbered)

/-- Where numbers are in order, the flag tells of evicted events, but not from the start. -/
theorem isTruncated_iff {underWay : List BufferedEvent}
    (numbered : Numbered BufferedEvent.seq (evicted ++ buffer ++ underWay) count)
    (nonempty : buffer = [] → evicted = []) :
    isTruncated buffer afterSeq = true ↔
      0 < afterSeq ∧ ∃ event ∈ evicted, afterSeq < event.seq := by
  rw [List.append_assoc] at numbered
  rw [numbered.exists_beyond_iff]
  simp only [isTruncated, Bool.and_eq_true, decide_eq_true_eq, minBufferedSeq]
  cases buffer with
  | nil =>
      have none := nonempty rfl
      simp [none]
  | cons front rest =>
      have place := numbered.head
      simp only [List.head?_cons, Option.map_some, Option.any_some, decide_eq_true_eq, place]
      omega

end Pages

/-! ## Steps in order -/

/-- What steps in order preserve. -/
structure Sound (channels : List String) (feed : Feed) : Prop where
  numbered : Numbered BufferedEvent.seq (feed.evicted ++ feed.buffer ++ feed.underWay) feed.eventSeq
  nonempty : feed.buffer = [] → feed.evicted = []
  behind : ∀ event ∈ feed.received, event.seq ≤ feed.cursor
  ahead : ∀ event ∈ feed.underWay, feed.cursor < event.seq
  bounded : feed.cursor ≤ feed.eventSeq
  ascending : Ascending BufferedEvent.seq feed.received
  wanted : ∀ event ∈ feed.received, wanted channels event = true
  complete : ∀ event ∈ feed.buffer, Replay.wanted channels event = true →
    event.seq ≤ feed.cursor → event ∈ feed.received
  truncation : ∀ report ∈ feed.reports, report.truncated = true ↔ report.LostBehind

section Steps

variable {channels : List String} {feed next : Feed} {label : FeedAction} {event : BufferedEvent}

theorem sound_start : Sound channels Feed.start where
  numbered := .nil
  nonempty := fun _ => rfl
  behind := fun _ none => nomatch none
  ahead := fun _ none => nomatch none
  bounded := Nat.le_refl 0
  ascending := List.Pairwise.nil
  wanted := fun _ none => nomatch none
  complete := fun _ none => nomatch none
  truncation := fun _ none => nomatch none

/-- Step: an event takes the next number. -/
theorem Sound.number (sound : Sound channels feed) (channel : String) (data : Value)
    (timestamp : String) : Sound channels (feed.number channel data timestamp) where
  numbered := by
    change Numbered BufferedEvent.seq (feed.evicted ++ feed.buffer ++
      (feed.underWay ++ [⟨feed.eventSeq + 1, channel, data, timestamp⟩])) (feed.eventSeq + 1)
    rw [← List.append_assoc]
    exact sound.numbered.concat rfl
  nonempty := sound.nonempty
  behind := sound.behind
  ahead := by
    intro event mem
    rcases List.mem_append.mp mem with earlier | new
    · exact sound.ahead event earlier
    · cases List.mem_singleton.mp new
      exact Nat.lt_succ_of_le sound.bounded
  bounded := Nat.le_succ_of_le sound.bounded
  ascending := sound.ascending
  wanted := sound.wanted
  complete := sound.complete
  truncation := sound.truncation

/-- The event that is not overtaken is the first of those under way. -/
theorem Sound.exists_rest (sound : Sound channels feed) (mem : event ∈ feed.underWay)
    (least : ∀ other ∈ feed.underWay, event.seq ≤ other.seq) :
    ∃ rest, feed.underWay = event :: rest := by
  have ascending := (List.pairwise_append.mp sound.numbered.ascending).2.1
  cases underWay : feed.underWay with
  | nil =>
      rw [underWay] at mem
      cases mem
  | cons first rest =>
      rw [underWay] at mem least ascending
      rcases List.mem_cons.mp mem with rfl | later
      · exact ⟨rest, rfl⟩
      · have smaller := (List.pairwise_cons.mp ascending).1 event later
        have notSmaller := least first List.mem_cons_self
        omega

theorem Feed.insert_underWay {rest : List BufferedEvent}
    (underWay : feed.underWay = event :: rest) : (feed.insert event).underWay = rest := by
  simp [Feed.insert, underWay]

theorem Feed.insert_whole : (feed.insert event).evicted ++ (feed.insert event).buffer =
    feed.evicted ++ feed.buffer ++ [event] := by
  simp only [Feed.insert]
  rw [List.append_assoc, List.take_append_drop, List.append_assoc]

theorem Feed.insert_buffer : (feed.insert event).buffer =
    (feed.buffer ++ [event]).drop (excess (feed.buffer ++ [event])) := by
  rw [Feed.insert]

theorem Feed.insert_buffer_ne_nil : (feed.insert event).buffer ≠ [] := by
  intro empty
  rw [Feed.insert_buffer, List.drop_eq_nil_iff, excess, List.length_append,
    List.length_singleton] at empty
  have positive : 0 < maxBufferSize := by decide
  omega

theorem Feed.insert_buffer_length_le :
    (feed.insert event).buffer.length ≤ maxBufferSize := by
  rw [Feed.insert_buffer, List.length_drop, excess]
  omega

theorem Feed.mem_insert_buffer {other : BufferedEvent}
    (mem : other ∈ (feed.insert event).buffer) : other ∈ feed.buffer ∨ other = event := by
  rw [Feed.insert_buffer] at mem
  rcases List.mem_append.mp (List.mem_of_mem_drop mem) with earlier | new
  · exact .inl earlier
  · exact .inr (List.mem_singleton.mp new)

/-- Step: the first event under way enters the buffer. -/
theorem Sound.insert (sound : Sound channels feed) {rest : List BufferedEvent}
    (underWay : feed.underWay = event :: rest) : Sound channels (feed.insert event) where
  numbered := by
    have numbered := sound.numbered
    rw [underWay] at numbered
    rw [Feed.insert_whole, Feed.insert_underWay underWay, List.append_assoc _ [event] rest]
    exact numbered
  nonempty := fun empty => absurd empty Feed.insert_buffer_ne_nil
  behind := sound.behind
  ahead := by
    intro other later
    rw [Feed.insert_underWay underWay] at later
    apply sound.ahead
    rw [underWay]
    exact List.mem_cons_of_mem event later
  bounded := sound.bounded
  ascending := sound.ascending
  wanted := sound.wanted
  complete := by
    intro other here isWanted behind
    rcases Feed.mem_insert_buffer here with earlier | rfl
    · exact sound.complete other earlier isWanted behind
    · -- the new event is beyond everything that was received
      have beyond : feed.cursor < other.seq := by
        apply sound.ahead
        rw [underWay]
        exact List.mem_cons_self
      exact absurd behind (Nat.not_le_of_lt beyond)
  truncation := sound.truncation

/-- The subscriber's number is that of the last event of a page that has any. -/
theorem Feed.page_cursor (limit : Option Nat) :
    ((readPage feed.buffer channels feed.cursor limit).events = [] ∧
      (feed.page channels limit).cursor = feed.cursor) ∨
    ∃ last, (readPage feed.buffer channels feed.cursor limit).events.getLast? = some last ∧
      last ∈ (readPage feed.buffer channels feed.cursor limit).events ∧
      last ∈ waiting feed.buffer channels feed.cursor ∧
      (feed.page channels limit).cursor = last.seq := by
  cases lastEq : (readPage feed.buffer channels feed.cursor limit).events.getLast? with
  | none =>
      left
      constructor
      · exact List.getLast?_eq_none_iff.mp lastEq
      · simp only [Feed.page, lastEq, Option.map_none, Option.getD_none]
  | some last =>
      right
      have mem := List.mem_of_getLast? lastEq
      have waits := mem
      rw [readPage_events] at waits
      refine ⟨last, rfl, mem, List.mem_of_mem_take waits, ?_⟩
      simp only [Feed.page, lastEq, Option.map_some, Option.getD_some]

theorem Feed.le_page_cursor (limit : Option Nat) :
    feed.cursor ≤ (feed.page channels limit).cursor := by
  rcases Feed.page_cursor limit with ⟨-, same⟩ | ⟨last, -, -, waits, same⟩
  · exact Nat.le_of_eq same.symm
  · rw [same]
    exact Nat.le_of_lt (mem_waiting_iff.mp waits).2.2

/-- Step: the subscriber reads a page. -/
theorem Sound.page (sound : Sound channels feed) (limit : Option Nat) :
    Sound channels (feed.page channels limit) where
  numbered := sound.numbered
  nonempty := sound.nonempty
  behind := by
    intro event mem
    rcases List.mem_append.mp mem with earlier | new
    · exact Nat.le_trans (sound.behind event earlier) (Feed.le_page_cursor limit)
    · rcases Feed.page_cursor limit with ⟨empty, -⟩ | ⟨last, lastEq, -, -, same⟩
      · rw [empty] at new
        cases new
      · rw [same]
        exact (ascending_events sound.numbered).le_getLast new lastEq
  ahead := by
    intro event later
    rcases Feed.page_cursor limit with ⟨-, same⟩ | ⟨last, -, -, waits, same⟩
    · rw [same]
      exact sound.ahead event later
    · rw [same]
      have inBuffer := (mem_waiting_iff.mp waits).1
      exact (List.pairwise_append.mp sound.numbered.ascending).2.2 last
        (List.mem_append_right feed.evicted inBuffer) event later
  bounded := by
    rcases Feed.page_cursor limit with ⟨-, same⟩ | ⟨last, -, -, waits, same⟩
    · rw [same]
      exact sound.bounded
    · rw [same]
      apply sound.numbered.le
      have inBuffer := (mem_waiting_iff.mp waits).1
      exact List.mem_append_left feed.underWay (List.mem_append_right feed.evicted inBuffer)
  ascending := by
    apply List.pairwise_append.mpr
    refine ⟨sound.ascending, ascending_events sound.numbered, ?_⟩
    intro earlier received later new
    rw [readPage_events] at new
    exact Nat.lt_of_le_of_lt (sound.behind earlier received)
      (mem_waiting_iff.mp (List.mem_of_mem_take new)).2.2
  wanted := by
    intro event mem
    rcases List.mem_append.mp mem with earlier | new
    · exact sound.wanted event earlier
    · rw [readPage_events] at new
      exact (mem_waiting_iff.mp (List.mem_of_mem_take new)).2.1
  complete := by
    intro event here isWanted behind
    apply List.mem_append.mpr
    by_cases before : event.seq ≤ feed.cursor
    · exact .inl (sound.complete event here isWanted before)
    · right
      have waits : event ∈ waiting feed.buffer channels feed.cursor :=
        mem_waiting_iff.mpr ⟨here, isWanted, Nat.lt_of_not_le before⟩
      rcases Feed.page_cursor limit with ⟨-, same⟩ | ⟨last, -, onPage, -, same⟩
      · rw [same] at behind
        exact absurd behind before
      · -- everything up to the last event of the page is on it
        rw [same] at behind
        rw [readPage_events] at onPage ⊢
        exact Ascending.mem_take (Numbered.ascending_waiting sound.numbered) waits onPage behind
  truncation := sound.truncation

/-- Step: the flag of a page is read. -/
theorem Sound.flag (sound : Sound channels feed) (afterSeq : Nat) :
    Sound channels (feed.flag afterSeq) where
  numbered := sound.numbered
  nonempty := sound.nonempty
  behind := sound.behind
  ahead := sound.ahead
  bounded := sound.bounded
  ascending := sound.ascending
  wanted := sound.wanted
  complete := sound.complete
  truncation := by
    intro report mem
    rcases List.mem_append.mp mem with earlier | new
    · exact sound.truncation report earlier
    · cases List.mem_singleton.mp new
      exact isTruncated_iff sound.numbered sound.nonempty

theorem Sound.step (sound : Sound channels feed) (inOrder : InOrder feed label)
    (stepEq : feedStep channels feed label = some next) : Sound channels next := by
  cases label with
  | number channel data timestamp =>
      cases stepEq
      exact sound.number channel data timestamp
  | insert seq =>
      rcases Option.map_eq_some_iff.mp stepEq with ⟨event, found, rfl⟩
      have mem := List.mem_of_find?_eq_some found
      have same : event.seq = seq := by simpa using List.find?_some found
      have least : ∀ other ∈ feed.underWay, event.seq ≤ other.seq := by
        rw [same]
        exact inOrder
      rcases sound.exists_rest mem least with ⟨rest, underWay⟩
      exact sound.insert underWay
  | page limit =>
      simp only [feedStep] at stepEq
      split at stepEq
      · cases stepEq
        exact sound.page limit
      · cases stepEq
  | flag =>
      rcases Option.map_eq_some_iff.mp stepEq with ⟨afterSeq, asked, rfl⟩
      exact sound.flag afterSeq

/-- What steps in order preserve is enough. -/
theorem Sound.exact (sound : Sound channels feed) : Exact Report.LostBehind channels feed where
  ascending := sound.ascending
  wanted := sound.wanted
  complete := sound.complete
  drained := by
    intro limit last event here isWanted
    apply List.mem_append.mpr
    by_cases before : event.seq ≤ feed.cursor
    · exact .inl (sound.complete event here isWanted before)
    · right
      apply mem_events_of_drained last
      exact mem_waiting_iff.mpr ⟨here, isWanted, Nat.lt_of_not_le before⟩
  truncation := sound.truncation

end Steps

/-! ## Main theorem -/

/-- A run in which no event is overtaken ends in a state whose pages are exact, a page
from the start never being reported as truncated. -/
theorem pagesAreExact (channels : List String) (labels : List FeedAction) (feed : Feed)
    (inOrder : Along (feedStep channels) InOrder Feed.start labels)
    (ran : run (feedStep channels) Feed.start labels = some feed) :
    Exact Report.LostBehind channels feed := by
  have sound := run_invariant_along (Sound channels)
    (fun _ _ _ sound inOrder stepEq => sound.step inOrder stepEq)
    sound_start inOrder ran
  exact sound.exact

/-- Two events enter in the order of their numbers, and are read page by page. -/
def orderlyLabels : List FeedAction :=
  [.number "chat" .null "t1", .number "chat" .null "t2", .insert 1, .page (some 1), .flag,
    .insert 2, .page (some 1), .flag]

theorem pagesAreExact_orderly : ∃ feed,
    run (feedStep ["chat"]) Feed.start orderlyLabels = some feed ∧
      feed.received = [⟨1, "chat", .null, "t1"⟩, ⟨2, "chat", .null, "t2"⟩] ∧
      Exact Report.LostBehind ["chat"] feed :=
  ⟨_, rfl, rfl, pagesAreExact ["chat"] orderlyLabels _ (by decide +kernel) rfl⟩

/-- A number of events, one after the other. -/
def emissions : Nat → List FeedAction
  | 0 => []
  | count + 1 => emissions count ++ [.number "chat" .null "t", .insert (count + 1)]

/-- Nobody has read anything of them. -/
theorem run_emissions (channels : List String) (count : Nat) : ∃ feed,
    run (feedStep channels) Feed.start (emissions count) = some feed ∧ Sound channels feed ∧
      feed.eventSeq = count ∧ feed.underWay = [] ∧ feed.buffer.length ≤ maxBufferSize ∧
      feed.cursor = 0 ∧ feed.asked = none := by
  induction count with
  | zero => exact ⟨Feed.start, rfl, sound_start, rfl, rfl, Nat.zero_le _, rfl, rfl⟩
  | succ count ih =>
      rcases ih with ⟨feed, ran, sound, seq, empty, -, cursor, asked⟩
      have underWay : (feed.number "chat" .null "t").underWay =
          [⟨feed.eventSeq + 1, "chat", .null, "t"⟩] := by
        rw [Feed.number, empty, List.nil_append]
      refine ⟨(feed.number "chat" .null "t").insert ⟨feed.eventSeq + 1, "chat", .null, "t"⟩,
        ?_, (sound.number "chat" .null "t").insert underWay, ?_, Feed.insert_underWay underWay,
        Feed.insert_buffer_length_le, cursor, asked⟩
      · rw [emissions, run_append_eq_some_iff]
        refine ⟨feed, ran, ?_⟩
        simp [run, feedStep, underWay, seq]
      · change feed.eventSeq + 1 = count + 1
        rw [seq]

/-- After more events than the buffer holds, a page from the start does not say that the
first ones are gone. -/
theorem not_lossAlwaysReported : ¬ ∀ (channels : List String) (labels : List FeedAction)
    (feed : Feed), run (feedStep channels) Feed.start labels = some feed →
      Exact Report.Lost channels feed := by
  intro exact
  rcases run_emissions ["chat"] (maxBufferSize + 1) with
    ⟨feed, ran, sound, seq, empty, full, cursor, asked⟩
  have ranOn : run (feedStep ["chat"]) Feed.start
      (emissions (maxBufferSize + 1) ++ [.page none, .flag]) =
        some ((feed.page ["chat"] none).flag feed.cursor) := by
    rw [run_append_eq_some_iff]
    refine ⟨feed, ran, ?_⟩
    simp [run, feedStep, asked, Feed.page]
  have lost : Report.Lost ⟨feed.cursor, isTruncated feed.buffer feed.cursor, feed.evicted⟩ := by
    have numbered := sound.numbered
    have lengths := numbered.length
    rw [List.append_assoc] at numbered
    apply (numbered.exists_beyond_iff feed.cursor).mpr
    simp only [empty, List.append_nil, List.length_append] at lengths
    omega
  have reported := ((exact _ _ _ ranOn).truncation _ List.mem_concat_self).mpr lost
  simp [isTruncated, cursor] at reported

/-- The second event enters the buffer first, and is read before the first one enters. -/
def overtakenLabels : List FeedAction :=
  [.number "chat" .null "t1", .number "chat" .null "t2", .insert 2, .page none, .flag, .insert 1]

/-- A subscriber goes past an event that was overtaken. -/
theorem not_exactWhereOvertaken : ¬ ∀ (channels : List String) (labels : List FeedAction)
    (feed : Feed), run (feedStep channels) Feed.start labels = some feed →
      Exact Report.LostBehind channels feed := by
  intro exact
  have missed := (exact ["chat"] overtakenLabels _ rfl).complete ⟨1, "chat", .null, "t1"⟩
    (List.mem_cons_of_mem _ List.mem_cons_self) rfl (by decide +kernel)
  have other : (⟨1, "chat", .null, "t1"⟩ : BufferedEvent) = ⟨2, "chat", .null, "t2"⟩ :=
    List.mem_singleton.mp missed
  cases other

end ClotoCore.Replay
