import ClotoCore.Access.Readers
import ClotoCore.Encoding.Text
import ClotoCore.Lookup.Keyed
import ClotoCore.Mcp.ToolCall
import ClotoCore.Replay.Buffer

/-!
# Subscriptions and the events that they receive

A subscription is stored under an id made of its server and the clock, and one of
the same id is overwritten.  Ids of two servers or times differ, but for clocks
before 1970, where the sign can be read as the end of a server's name.
-/

namespace ClotoCore.Replay

open ClotoCore.Access ClotoCore.Encoding ClotoCore.Json ClotoCore.Lookup ClotoCore.Mcp
  ClotoCore.Transition

/-! ## The table -/

/-- `EventSubscription` -/
structure EventSubscription where
  id : String
  serverId : String
  channels : List String
  filter : Option Value

/-- The subscriptions of `EventManager`. -/
abbrev SubscriptionTable := Keyed EventSubscription.id

/-- `invalid_tool_arg` -/
def invalidToolArg (message : String) : ToolFailure :=
  .mgpError 4000 message

/-- The id of a subscription that is made at a time in milliseconds. -/
def subscriptionId (serverId : String) (now : Int) : String :=
  "sub-" ++ serverId ++ "-" ++ toString now

/-- The server of the arguments of `subscribe`. -/
def subscriber (args : Value) : String :=
  (args.getStr "server_id").getD "kernel"

/-- The channels of the arguments of `subscribe`. -/
def requestedChannels (args : Value) : List String :=
  (((args.get "channels").bind Value.asArray).map (List.filterMap Value.asStr)).getD []

/-- The subscription that the arguments ask for. -/
def requested (now : Int) (args : Value) : EventSubscription where
  id := subscriptionId (subscriber args) now
  serverId := subscriber args
  channels := requestedChannels args
  filter := args.get "filter"

/-- `subscribe`, with the subscription whose channels and id it answers. -/
def subscribe (table : SubscriptionTable) (now : Int) (args : Value) :
    Except ToolFailure (SubscriptionTable × EventSubscription) :=
  if (requestedChannels args).isEmpty then .error (invalidToolArg "channels must not be empty")
  else .ok (table.insert (requested now args), requested now args)

/-- `unsubscribe`, with the id and whether it was there. -/
def unsubscribe (table : SubscriptionTable) (args : Value) :
    Except ToolFailure (SubscriptionTable × String × Bool) :=
  match args.getStr "subscription_id" with
  | none => .error (invalidToolArg (missingToolArg "subscription_id"))
  | some id => .ok (table.remove id, id, (table.get id).isSome)

/-! ## Delivery -/

/-- What the notification of an event says. -/
structure Notification where
  serverId : String
  subscriptionId : String
  event : BufferedEvent

/-- `matching_subscriptions`; no order of them is one of the source's. -/
def matchingSubscriptions (table : SubscriptionTable) (channel : String) :
    List EventSubscription :=
  table.items.filter fun sub => matchesChannels sub.channels channel

/-- `event_matches_filter` -/
def eventMatchesFilter (sameNumber : Number → Number → Bool) (data filter : Value) : Bool :=
  match filter.asObject with
  | none => true
  | some wanted =>
      match data.asObject with
      | none => false
      | some members => wanted.all fun (name, _) =>
          match lastValue wanted name, lastValue members name with
          | some value, some other => sameValue sameNumber other value
          | _, _ => false

/-- The data passes the filter of a subscription, if it has one. -/
def EventSubscription.passes (sameNumber : Number → Number → Bool) (sub : EventSubscription)
    (data : Value) : Bool :=
  sub.filter.all (eventMatchesFilter sameNumber data)

/-- The server is operational and has a client. -/
def isReachable (manager : Manager) (serverId : String) : Bool :=
  (manager.servers serverId).any fun handle =>
    handle.status.isOperational && handle.client.isSome

/-- The notification of an event for a subscription. -/
def EventSubscription.notify (sub : EventSubscription) (event : BufferedEvent) : Notification where
  serverId := sub.serverId
  subscriptionId := sub.id
  event := event

/-- The subscriptions to which `deliver_event` sends an event. -/
def receivers (sameNumber : Number → Number → Bool) (table : SubscriptionTable)
    (manager : Manager) (channel : String) (data : Value) : List EventSubscription :=
  ((matchingSubscriptions table channel).filter fun sub => sub.passes sameNumber data).filter
    fun sub => isReachable manager sub.serverId

/-- The notifications that `deliver_event` sends. -/
def notifications (sameNumber : Number → Number → Bool) (table : SubscriptionTable)
    (manager : Manager) (event : BufferedEvent) : List Notification :=
  (receivers sameNumber table manager event.channel event.data).map fun sub => sub.notify event

/-- A subscription whose server can be reached is sent an event. -/
def EventSubscription.accepts (sameNumber : Number → Number → Bool) (sub : EventSubscription)
    (manager : Manager) (channel : String) (data : Value) : Bool :=
  matchesChannels sub.channels channel && sub.passes sameNumber data &&
    isReachable manager sub.serverId

section Delivery

variable {sameNumber : Number → Number → Bool} {table : SubscriptionTable} {manager : Manager}
  {channel : String} {data : Value} {sub : EventSubscription} {event : BufferedEvent}

theorem receivers_eq : receivers sameNumber table manager channel data =
    table.items.filter fun sub => sub.accepts sameNumber manager channel data := by
  simp only [receivers, matchingSubscriptions, List.filter_filter]
  congr 1
  funext sub
  simp only [EventSubscription.accepts]
  ac_rfl

theorem mem_receivers_iff : sub ∈ receivers sameNumber table manager channel data ↔
    sub ∈ table.items ∧ sub.accepts sameNumber manager channel data = true := by
  rw [receivers_eq, List.mem_filter]

/-- A subscription of the table is notified once of an event that it accepts, and of no
other. -/
theorem notifications_of_mem (mem : sub ∈ table.items) :
    (notifications sameNumber table manager event).filter
        (fun notification => notification.subscriptionId == sub.id) =
      if sub.accepts sameNumber manager event.channel event.data = true then [sub.notify event]
      else [] := by
  rw [notifications, List.filter_map, receivers_eq]
  change List.map _ (List.filter (fun other : EventSubscription => other.id == sub.id) _) = _
  rw [Keyed.filter_filter_key mem]
  split <;> rfl

end Delivery

/-! ## Ids -/

/-- The server as it stands in an id before the last dash. -/
def stem (serverId : String) (now : Int) : List Char :=
  if now < 0 then serverId.toList ++ ['-'] else serverId.toList

theorem dash_notMem_toDigits (value : Nat) : '-' ∉ Nat.toDigits 10 value := by
  intro mem
  have digit := Nat.isDigit_of_mem_toDigits (by decide) (by decide) mem
  exact absurd digit (by decide)

theorem toList_subscriptionId (serverId : String) (now : Int) :
    (subscriptionId serverId now).toList =
      "sub-".toList ++ (stem serverId now ++ '-' :: Nat.toDigits 10 now.natAbs) := by
  have dash : "-".toList = ['-'] := by decide
  cases now with
  | ofNat value =>
      simp [subscriptionId, stem, dash, Int.repr]
  | negSucc value =>
      simp [subscriptionId, stem, dash, Int.repr, Int.negSucc_lt_zero]

theorem subscriptionId_eq_iff_stem {serverId other : String} {now later : Int} :
    subscriptionId serverId now = subscriptionId other later ↔
      stem serverId now = stem other later ∧ now.natAbs = later.natAbs := by
  rw [← String.toList_inj, toList_subscriptionId, toList_subscriptionId, List.append_cancel_left_eq]
  constructor
  · intro equal
    rcases append_cons_inj_of_notMem_right (dash_notMem_toDigits _) (dash_notMem_toDigits _) equal
      with ⟨stemEq, digitsEq⟩
    exact ⟨stemEq, toDigits_injective digitsEq⟩
  · rintro ⟨stemEq, absEq⟩
    rw [stemEq, absEq]

theorem toList_concat_dash (serverId : String) :
    (serverId ++ "-").toList = serverId.toList ++ ['-'] := by
  have dash : "-".toList = ['-'] := by decide
  rw [String.toList_append, dash]

/-- Two ids are the same if server and time are, or if one server's name ends in the
sign of the other's time. -/
theorem subscriptionId_eq_iff {serverId other : String} {now later : Int} :
    subscriptionId serverId now = subscriptionId other later ↔
      serverId = other ∧ now = later ∨
      other = serverId ++ "-" ∧ now < 0 ∧ later = -now ∨
      serverId = other ++ "-" ∧ later < 0 ∧ now = -later := by
  rw [subscriptionId_eq_iff_stem, ← String.toList_inj, ← String.toList_inj, ← String.toList_inj,
    toList_concat_dash, toList_concat_dash, stem, stem]
  by_cases before : now < 0
  · by_cases laterBefore : later < 0
    · -- both times have a sign, so neither name ends in it
      rw [if_pos before, if_pos laterBefore, List.append_cancel_right_eq]
      constructor
      · rintro ⟨sameServer, absEq⟩
        exact .inl ⟨sameServer, by omega⟩
      · rintro (⟨sameServer, rfl⟩ | ⟨-, -, opposite⟩ | ⟨-, -, opposite⟩)
        · exact ⟨sameServer, rfl⟩
        · omega
        · omega
    · rw [if_pos before, if_neg laterBefore]
      constructor
      · rintro ⟨stemEq, absEq⟩
        exact .inr (.inl ⟨stemEq.symm, before, by omega⟩)
      · rintro (⟨-, rfl⟩ | ⟨stemEq, -, opposite⟩ | ⟨-, negative, -⟩)
        · exact absurd before laterBefore
        · exact ⟨stemEq.symm, by omega⟩
        · exact absurd negative laterBefore
  · by_cases laterBefore : later < 0
    · rw [if_neg before, if_pos laterBefore]
      constructor
      · rintro ⟨stemEq, absEq⟩
        exact .inr (.inr ⟨stemEq, laterBefore, by omega⟩)
      · rintro (⟨-, rfl⟩ | ⟨-, negative, -⟩ | ⟨stemEq, -, opposite⟩)
        · exact absurd laterBefore before
        · exact absurd negative before
        · exact ⟨stemEq, by omega⟩
    · rw [if_neg before, if_neg laterBefore]
      constructor
      · rintro ⟨sameServer, absEq⟩
        exact .inl ⟨sameServer, by omega⟩
      · rintro (⟨sameServer, rfl⟩ | ⟨-, negative, -⟩ | ⟨-, negative, -⟩)
        · exact ⟨sameServer, rfl⟩
        · exact absurd negative before
        · exact absurd negative laterBefore

/-! ## Runs -/

/-- A subscription that was made and not cancelled since, and when it was made. -/
structure Made where
  subscription : EventSubscription
  madeAt : Int

/-- The table, the subscriptions that were made and not cancelled since, and the clock. -/
structure Subscribers where
  table : SubscriptionTable
  live : List Made
  clock : Int

/-- A clock reading, and nobody has subscribed yet. -/
def Subscribers.start (clock : Int) : Subscribers where
  table := Keyed.empty EventSubscription.id
  live := []
  clock := clock

/-- A call of one of the two tools, and what the clock reads then. -/
inductive SubscriptionCall where
  | subscribe (now : Int) (args : Value)
  | unsubscribe (now : Int) (args : Value)

/-- One call; one that fails changes nothing. -/
def subscriptionStep : Action Subscribers SubscriptionCall
  | state, .subscribe now args =>
      if now < state.clock then none
      else match subscribe state.table now args with
        | .error _ => some { state with clock := now }
        | .ok (table, sub) => some
            { table := table, live := state.live ++ [⟨sub, now⟩], clock := now }
  | state, .unsubscribe now args =>
      if now < state.clock then none
      else match unsubscribe state.table args with
        | .error _ => some { state with clock := now }
        | .ok (table, id, _) => some
            { table := table
              live := state.live.filter fun made => made.subscription.id != id
              clock := now }

/-- No subscription is lost to another: each is stored under its id, no two have one id,
and each is notified once of an event that it accepts. -/
structure Kept (state : Subscribers) : Prop where
  stored : ∀ made ∈ state.live,
    state.table.get made.subscription.id = some made.subscription
  distinct : (state.live.map fun made => made.subscription.id).Nodup
  once : ∀ made ∈ state.live, ∀ sameNumber manager event,
    (notifications sameNumber state.table manager event).filter
        (fun notification => notification.subscriptionId == made.subscription.id) =
      if made.subscription.accepts sameNumber manager event.channel event.data = true then
        [made.subscription.notify event]
      else []

/-- A call that subscribes no server twice within one millisecond, and none whose name
ends, at a time after 1970, in the sign of a time before it. -/
def Apart (state : Subscribers) : SubscriptionCall → Prop
  | .subscribe now args => requestedChannels args ≠ [] → ∀ made ∈ state.live,
      ¬ (made.subscription.serverId = subscriber args ∧ made.madeAt = now) ∧
      ¬ (subscriber args = made.subscription.serverId ++ "-" ∧ made.madeAt < 0 ∧
        now = -made.madeAt)
  | .unsubscribe _ _ => True

instance (state : Subscribers) : (call : SubscriptionCall) → Decidable (Apart state call)
  | .subscribe now args => inferInstanceAs (Decidable (requestedChannels args ≠ [] →
      ∀ made ∈ state.live,
        ¬ (made.subscription.serverId = subscriber args ∧ made.madeAt = now) ∧
        ¬ (subscriber args = made.subscription.serverId ++ "-" ∧ made.madeAt < 0 ∧
          now = -made.madeAt)))
  | .unsubscribe _ _ => isTrue trivial

/-- What the calls that keep their ids apart preserve. -/
structure Whole (state : Subscribers) : Prop where
  table : state.table.items = state.live.map Made.subscription
  ids : ∀ made ∈ state.live,
    made.subscription.id = subscriptionId made.subscription.serverId made.madeAt
  earlier : ∀ made ∈ state.live, made.madeAt ≤ state.clock

section Steps

variable {state next : Subscribers} {call : SubscriptionCall} {now : Int} {args : Value}

theorem whole_start (clock : Int) : Whole (Subscribers.start clock) where
  table := rfl
  ids := fun _ none => nomatch none
  earlier := fun _ none => nomatch none

theorem Whole.mem_items (whole : Whole state) {made : Made} (mem : made ∈ state.live) :
    made.subscription ∈ state.table.items := by
  rw [whole.table]
  exact List.mem_map_of_mem mem

theorem Whole.kept (whole : Whole state) : Kept state where
  stored := fun _ mem => Keyed.get_eq_some_iff.mpr ⟨whole.mem_items mem, rfl⟩
  distinct := by
    have distinct := state.table.distinct
    rw [whole.table, List.map_map] at distinct
    exact distinct
  once := fun _ mem _ _ _ => notifications_of_mem (whole.mem_items mem)

/-- The clock moves, and nothing else does. -/
theorem Whole.tick (whole : Whole state) (later : ¬ now < state.clock) :
    Whole { state with clock := now } where
  table := whole.table
  ids := whole.ids
  earlier := fun made mem => Int.le_trans (whole.earlier made mem) (Int.not_lt.mp later)

/-- An id is new exactly if the call keeps it apart. -/
theorem Whole.apart_iff (whole : Whole state) (later : ¬ now < state.clock)
    (channels : requestedChannels args ≠ []) :
    Apart state (.subscribe now args) ↔
      ∀ made ∈ state.live, made.subscription.id ≠ subscriptionId (subscriber args) now := by
  constructor
  · intro apart made mem same
    rw [whole.ids made mem, subscriptionId_eq_iff] at same
    have earlier := whole.earlier made mem
    rcases same with same | ⟨longer, before, opposite⟩ | ⟨-, before, opposite⟩
    · exact (apart channels made mem).1 same
    · exact (apart channels made mem).2 ⟨longer, before, opposite⟩
    · -- the clock does not go back to before 1970
      omega
  · intro fresh _ made mem
    have different := fresh made mem
    rw [whole.ids made mem, Ne, subscriptionId_eq_iff] at different
    constructor
    · intro same
      exact different (.inl same)
    · intro longer
      exact different (.inr (.inl longer))

/-- Step: a server subscribes. -/
theorem Whole.subscribe (whole : Whole state) (later : ¬ now < state.clock)
    (channels : requestedChannels args ≠ []) (apart : Apart state (.subscribe now args)) :
    Whole { table := state.table.insert (requested now args)
            live := state.live ++ [⟨requested now args, now⟩]
            clock := now } where
  table := by
    have fresh : ∀ other ∈ state.table.items, other.id ≠ (requested now args).id := by
      rw [whole.table]
      intro other mem
      rcases List.mem_map.mp mem with ⟨made, here, rfl⟩
      exact (whole.apart_iff later channels).mp apart made here
    change (state.table.insert (requested now args)).items = _
    rw [Keyed.insert_items fresh, whole.table, List.map_append]
    rfl
  ids := by
    intro made mem
    rcases List.mem_append.mp mem with here | new
    · exact whole.ids made here
    · cases List.mem_singleton.mp new
      rfl
  earlier := by
    intro made mem
    rcases List.mem_append.mp mem with here | new
    · exact Int.le_trans (whole.earlier made here) (Int.not_lt.mp later)
    · cases List.mem_singleton.mp new
      exact Int.le_refl now

/-- Step: a subscription is cancelled. -/
theorem Whole.unsubscribe (whole : Whole state) (later : ¬ now < state.clock) (id : String) :
    Whole { table := state.table.remove id
            live := state.live.filter fun made => made.subscription.id != id
            clock := now } where
  table := by
    change (state.table.items.filter fun sub => sub.id != id) = _
    rw [whole.table, List.filter_map]
    rfl
  ids := fun made mem => whole.ids made (List.mem_of_mem_filter mem)
  earlier := fun made mem => Int.le_trans (whole.earlier made (List.mem_of_mem_filter mem))
    (Int.not_lt.mp later)

/-- What a call of `subscribe` does. -/
theorem subscribe_cases (stepEq : subscriptionStep state (.subscribe now args) = some next) :
    ¬ now < state.clock ∧
      (requestedChannels args = [] ∧ next = { state with clock := now } ∨
        requestedChannels args ≠ [] ∧
          next = { table := state.table.insert (requested now args)
                   live := state.live ++ [⟨requested now args, now⟩]
                   clock := now }) := by
  rw [subscriptionStep, Replay.subscribe] at stepEq
  by_cases earlier : now < state.clock
  · rw [if_pos earlier] at stepEq
    cases stepEq
  · rw [if_neg earlier] at stepEq
    refine ⟨earlier, ?_⟩
    by_cases channels : requestedChannels args = []
    · rw [channels] at stepEq
      cases stepEq
      exact .inl ⟨channels, rfl⟩
    · have some : ¬ (requestedChannels args).isEmpty = true := by simpa using channels
      rw [if_neg some] at stepEq
      cases stepEq
      exact .inr ⟨channels, rfl⟩

/-- What a call of `unsubscribe` does. -/
theorem unsubscribe_cases (stepEq : subscriptionStep state (.unsubscribe now args) = some next) :
    ¬ now < state.clock ∧
      (next = { state with clock := now } ∨
        ∃ id, next = { table := state.table.remove id
                       live := state.live.filter fun made => made.subscription.id != id
                       clock := now }) := by
  rw [subscriptionStep, Replay.unsubscribe] at stepEq
  by_cases earlier : now < state.clock
  · rw [if_pos earlier] at stepEq
    cases stepEq
  · rw [if_neg earlier] at stepEq
    refine ⟨earlier, ?_⟩
    cases named : args.getStr "subscription_id" with
    | none =>
        rw [named] at stepEq
        cases stepEq
        exact .inl rfl
    | some id =>
        rw [named] at stepEq
        cases stepEq
        exact .inr ⟨id, rfl⟩

/-- Step: a call that keeps its ids apart. -/
theorem Whole.step (whole : Whole state) (apart : Apart state call)
    (stepEq : subscriptionStep state call = some next) : Whole next := by
  cases call with
  | subscribe now args =>
      rcases subscribe_cases stepEq with ⟨later, ⟨-, rfl⟩ | ⟨channels, rfl⟩⟩
      · exact whole.tick later
      · exact whole.subscribe later channels apart
  | unsubscribe now args =>
      rcases unsubscribe_cases stepEq with ⟨later, rfl | ⟨id, rfl⟩⟩
      · exact whole.tick later
      · exact whole.unsubscribe later id

/-- A call that does not keep its ids apart loses a subscription. -/
theorem Whole.apart_of_kept (whole : Whole state)
    (stepEq : subscriptionStep state call = some next) (kept : Kept next) : Apart state call := by
  cases call with
  | subscribe now args =>
      rcases subscribe_cases stepEq with ⟨later, ⟨channels, -⟩ | ⟨channels, rfl⟩⟩
      · exact fun some => absurd channels some
      · apply (whole.apart_iff later channels).mpr
        intro made mem same
        have distinct := kept.distinct
        rw [List.map_append] at distinct
        apply (List.nodup_append.mp distinct).2.2 made.subscription.id
          (List.mem_map_of_mem mem) _ List.mem_cons_self
        exact same
  | unsubscribe now args => trivial

end Steps

/-! ## Main theorem -/

/-- Over a run of calls no subscription is lost to another exactly if every call keeps
its ids apart. -/
theorem subscriptionsKept_iff (clock : Int) (calls : List SubscriptionCall) (last : Subscribers)
    (ran : run subscriptionStep (Subscribers.start clock) calls = some last) :
    (∀ count state,
      run subscriptionStep (Subscribers.start clock) (calls.take count) = some state →
        Kept state) ↔
      Along subscriptionStep Apart (Subscribers.start clock) calls := by
  apply throughout_iff_along_of (fun _ whole => whole.kept) _ _ (whole_start clock) ran
  · intro state call next whole apart stepEq
    exact whole.step apart stepEq
  · intro state call next whole stepEq kept
    exact whole.apart_of_kept stepEq kept

/-- The arguments of a subscription of one server to one channel. -/
def subscribeArgs (serverId channel : String) : Value :=
  .object [("server_id", .string serverId), ("channels", .array [.string channel])]

/-- One server subscribes twice, one millisecond apart, and cancels the first one. -/
def patientCalls : List SubscriptionCall :=
  [.subscribe 5 (subscribeArgs "files" "chat"), .subscribe 6 (subscribeArgs "files" "audit"),
    .unsubscribe 6 (.object [("subscription_id", .string "sub-files-5")])]

theorem subscriptionsKept_iff_patient : ∃ last,
    run subscriptionStep (Subscribers.start 0) patientCalls = some last ∧
      last.live = [⟨requested 6 (subscribeArgs "files" "audit"), 6⟩] ∧
      ∀ count state,
        run subscriptionStep (Subscribers.start 0) (patientCalls.take count) = some state →
          Kept state :=
  ⟨_, rfl, rfl, (subscriptionsKept_iff 0 patientCalls _ rfl).mpr (by decide +kernel)⟩

/-- One server subscribes twice within one millisecond. -/
def hastyCalls : List SubscriptionCall :=
  [.subscribe 5 (subscribeArgs "files" "chat"), .subscribe 5 (subscribeArgs "files" "audit")]

/-- The second subscription overwrites the first one. -/
theorem not_alwaysKept : ¬ ∀ (clock : Int) (calls : List SubscriptionCall) (last : Subscribers),
    run subscriptionStep (Subscribers.start clock) calls = some last → Kept last := by
  intro kept
  have distinct := (kept 0 hastyCalls _ rfl).distinct
  revert distinct
  decide +kernel

end ClotoCore.Replay
