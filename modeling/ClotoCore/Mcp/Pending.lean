import ClotoCore.Mcp.Era
import ClotoCore.Transition.Run

/-!
# Requests of the MCP client

A request is registered in a map under its id, sent and waited for.  Its answer, its
deadline or the end of its caller take it out again.  A streaming call has a collector
for its chunks besides, and leaves both to a watchdog.  One step is what a party does
between two awaits.
-/

namespace ClotoCore.Mcp.Pending

open ClotoCore.Json ClotoCore.Mcp.Era ClotoCore.Transition

/-! ## Messages -/

/-- `JsonRpcMessage`, or a line that is none. -/
inductive Message where
  | response (id result : Option Value) (error : Option RpcError)
  | notification (method : String) (params : Option Value)
  | unparseable

/-- What a pending request is answered with. -/
inductive Reply where
  | result (value : Value)
  | error (error : RpcError)
  | terminated

/-- `Value::as_i64` -/
def asI64 : Value → Option Int
  | .number literal =>
      if isI64 (.number literal) then
        some (if literal.negative then -literal.integer else literal.integer)
      else none
  | _ => none

/-- The number that decimal digits spell. -/
def readDigits (digits : List Char) : Option Nat :=
  if digits ≠ [] ∧ digits.all Char.isDigit then
    some (digits.foldl (fun number digit => 10 * number + (digit.toNat - 48)) 0)
  else none

/-- `str::parse::<i64>` -/
def parseI64 (text : String) : Option Int :=
  let parsed : Option Int := match text.toList with
    | '-' :: digits => (readDigits digits).map fun number => -(number : Int)
    | '+' :: digits => (readDigits digits).map Int.ofNat
    | digits => (readDigits digits).map Int.ofNat
  parsed.filter fun number => -9223372036854775808 ≤ number ∧ number ≤ 9223372036854775807

/-- The id that a response is correlated by. -/
def correlate (id : Value) : Option Int :=
  (asI64 id).or (id.asStr.bind parseI64)

/-- The request that an id is of; the one with number `n` was given the id `n + 1`. -/
def numberOf (id : Int) : Option Nat :=
  if 1 ≤ id then some (id - 1).toNat else none

/-- The number of the request that a message answers, and the answer. -/
def Message.answer? : Message → Option (Nat × Reply)
  | .response (some id) result error =>
      ((correlate id).bind numberOf).map fun n =>
        (n, (error.map Reply.error).getD (.result (result.getD .null)))
  | _ => none

/-! ## Requests -/

/-- How a request ends for its caller. -/
inductive Outcome where
  | answered (reply : Reply)
  | channelClosed
  | limitReached
  | unsent
  | timedOut
  | withdrawn

/-- The channel on which a pending request is answered. -/
inductive Slot where
  | waiting
  | filled (reply : Reply)
  | closed

/-- Where the caller of a request is.  A streaming call is refused before its collector
is taken away, and removes its entry after a send has failed. -/
inductive Stage where
  | collecting
  | registering
  | refused
  | sending
  | unsending
  | waiting
  | ended
  deriving DecidableEq

/-- Why the watchdog of a streaming call ends. -/
inductive Ending where
  | settled (outcome : Outcome)
  | timedOut
  | nobodyWaiting

/-- The watchdog, and at its end what it has sent to the caller. -/
inductive Watchdog where
  | absent
  | watching
  | ending (ending : Ending)
  | done (sent : Option Outcome)

/-- A request.  Whether it was registered and how it ended is read by no step. -/
structure Request where
  method : String
  streaming : Bool
  stage : Stage
  slot : Slot
  watchdog : Watchdog
  registered : Bool
  outcomes : List Outcome

/-- The client: the ids in its two maps, the removals that were left to tasks, the
requests that the server was told to cancel, and what the response loop has read. -/
structure State where
  cancelsByNotification : Bool
  requests : List Request
  pending : List Nat
  collectors : List Nat
  removals : List Nat
  cancelled : List Nat
  received : List Message
  running : Bool

/-- A running connection with nothing asked. -/
def State.init (cancelsByNotification : Bool) : State where
  cancelsByNotification := cancelsByNotification
  requests := []
  pending := []
  collectors := []
  removals := []
  cancelled := []
  received := []
  running := true

/-- `MAX_PENDING_REQUESTS` -/
def maxPendingRequests : Nat := 100

/-- Whether a withdrawal finds the map unlocked, and else a runtime for its task. -/
inductive Lock where
  | free
  | busy
  | busyOutside
  deriving DecidableEq

/-- What a withdrawal meets: the lock of the map, and whether the cancellation gets on
the wire. -/
structure Chance where
  lock : Lock
  told : Bool

/-- What the watchdog wakes up for. -/
inductive Waking where
  | answer
  | deadline
  | closed
  deriving DecidableEq

/-- A step of the caller (`start` to `unregister`, `settle` to `take`), of the response
loop, of the watchdog, or of a task that removes an entry.  `cancel` is the end of the
caller's future, or of the receiver of a streaming call. -/
inductive Label where
  | start (method : String) (streaming : Bool)
  | collect (n : Nat)
  | register (n : Nat)
  | uncollect (n : Nat)
  | send (n : Nat) (taken : Bool) (chance : Chance)
  | unregister (n : Nat)
  | settle (n : Nat)
  | giveUp (n : Nat) (chance : Chance)
  | cancel (n : Nat) (chance : Chance)
  | take (n : Nat)
  | receive (message : Message)
  | close
  | wake (n : Nat) (waking : Waking)
  | clean (n : Nat) (chance : Chance)
  | remove (n : Nat)

/-- The channel after its sender has gone. -/
def Slot.drop : Slot → Slot
  | .waiting => .closed
  | slot => slot

/-- The outcome that a resolved channel is read as. -/
def Slot.outcome? : Slot → Option Outcome
  | .waiting => none
  | .filled reply => some (.answered reply)
  | .closed => some .channelClosed

/-- The caller goes on with an outcome. -/
def Request.finish (request : Request) (outcome : Outcome) : Request :=
  { request with stage := .ended, outcomes := request.outcomes ++ [outcome] }

namespace State

/-- The request is in a new state. -/
def setRequest (state : State) (n : Nat) (request : Request) : State :=
  { state with requests := state.requests.set n request }

/-- Take the entry of a request out of `pending_requests`, and its sender with it. -/
def removePending (state : State) (n : Nat) : State :=
  { state with
    pending := state.pending.filter (· != n)
    requests := state.requests.modify n fun request =>
      { request with slot := request.slot.drop } }

/-- The request gives its collector up. -/
def removeCollector (state : State) (n : Nat) : State :=
  { state with collectors := state.collectors.filter (· != n) }

/-- Whether a cancellation is sent at all. -/
def notifies (state : State) (method : String) : Bool :=
  state.cancelsByNotification && method != "initialize" && method != "server/discover"

/-- The removal of `Withdrawal::withdraw`. -/
def release (state : State) (n : Nat) : Lock → State
  | .free => state.removePending n
  | .busy => { state with removals := state.removals ++ [n] }
  | .busyOutside => state

/-- `Withdrawal::withdraw` -/
def withdraw (state : State) (n : Nat) (method : String) (chance : Chance) : State :=
  let released := state.release n chance.lock
  if state.notifies method && chance.told then
    { released with cancelled := released.cancelled ++ [n] }
  else released

/-- `map.remove(&id)` and the send of the answer. -/
def deliver (state : State) (n : Nat) (reply : Reply) : State :=
  if n ∈ state.pending then
    { state with
      pending := state.pending.filter (· != n)
      requests := state.requests.modify n fun request => { request with slot := .filled reply } }
  else state

/-- The response loop takes a message. -/
def receive (state : State) (message : Message) : State :=
  let taken := { state with received := state.received ++ [message] }
  match message.answer? with
  | some (n, reply) => taken.deliver n reply
  | none => taken

/-- The response loop at the end of the transport: every pending request is answered. -/
def close (state : State) : State :=
  { state with
    pending := []
    running := false
    requests := state.requests.mapIdx fun n request =>
      if n ∈ state.pending then { request with slot := .filled .terminated } else request }

/-- A request that its caller starts takes the next id. -/
def start (state : State) (method : String) (streaming : Bool) : State :=
  { state with requests := state.requests ++ [
      { method := method
        streaming := streaming
        stage := if streaming then .collecting else .registering
        slot := .waiting
        watchdog := .absent
        registered := false
        outcomes := [] }] }

/-- The entry in `pending_requests`, unless there are too many. -/
def register (state : State) (n : Nat) (request : Request) : State :=
  if maxPendingRequests ≤ state.pending.length then
    if request.streaming then state.setRequest n { request with stage := .refused }
    else state.setRequest n (request.finish .limitReached)
  else
    { state with pending := state.pending ++ [n] }.setRequest n
      { request with
        stage := .sending
        slot := .waiting
        registered := true
        watchdog := if request.streaming then .watching else .absent }

/-- The end of `send_with_timeout`.  A streaming call leaves its entry to `unregister`. -/
def send (state : State) (n : Nat) (request : Request) (taken : Bool) (chance : Chance) : State :=
  if taken then state.setRequest n { request with stage := .waiting }
  else if request.streaming then state.setRequest n { request with stage := .unsending }
  else (state.setRequest n (request.finish .unsent)).release n chance.lock

/-- The caller goes away.  Before a request is registered there is nothing that would
withdraw it, and a streaming call is withdrawn by its watchdog. -/
def cancel (state : State) (n : Nat) (request : Request) (chance : Chance) : State :=
  if request.registered then
    let ended := state.setRequest n (request.finish .withdrawn)
    if request.streaming then ended else ended.withdraw n request.method chance
  else state.setRequest n { request with stage := .ended }

/-- The end of the watchdog. -/
def clean (state : State) (n : Nat) (request : Request) (ending : Ending) (chance : Chance) :
    State :=
  let cleaned := state.removeCollector n
  match ending with
  | .settled outcome => cleaned.setRequest n { request with watchdog := .done (some outcome) }
  | .timedOut =>
      (cleaned.setRequest n { request with watchdog := .done (some .timedOut) }).withdraw n
        request.method chance
  | .nobodyWaiting =>
      (cleaned.setRequest n { request with watchdog := .done none }).withdraw n
        request.method chance

end State

/-- Why a watchdog that wakes up ends, if it does. -/
def Request.ending? (request : Request) : Waking → Option Ending
  | .answer => request.slot.outcome?.map Ending.settled
  | .deadline => some .timedOut
  | .closed => if request.stage = .ended then some .nobodyWaiting else none

/-- One step. -/
def step : Action State Label
  | state, .start method streaming => some (state.start method streaming)
  | state, .collect n => do
      let request ← state.requests[n]?
      guard (request.stage = .collecting)
      return { state with collectors := state.collectors ++ [n] }.setRequest n
        { request with stage := .registering }
  | state, .register n => do
      let request ← state.requests[n]?
      guard (request.stage = .registering)
      return state.register n request
  | state, .uncollect n => do
      let request ← state.requests[n]?
      guard (request.stage = .refused)
      return (state.removeCollector n).setRequest n (request.finish .limitReached)
  | state, .send n taken chance => do
      let request ← state.requests[n]?
      guard (request.stage = .sending)
      return state.send n request taken chance
  | state, .unregister n => do
      let request ← state.requests[n]?
      guard (request.stage = .unsending)
      return (state.setRequest n (request.finish .unsent)).removePending n
  | state, .settle n => do
      let request ← state.requests[n]?
      guard (request.stage = .waiting ∧ request.streaming = false)
      let outcome ← request.slot.outcome?
      return state.setRequest n (request.finish outcome)
  | state, .giveUp n chance => do
      let request ← state.requests[n]?
      guard (request.stage = .waiting ∧ request.streaming = false)
      return (state.setRequest n (request.finish .timedOut)).withdraw n request.method chance
  | state, .cancel n chance => do
      let request ← state.requests[n]?
      guard (request.stage ≠ .ended)
      return state.cancel n request chance
  | state, .take n => do
      let request ← state.requests[n]?
      guard (request.stage = .waiting)
      match request.watchdog with
      | .done (some outcome) => return state.setRequest n (request.finish outcome)
      | _ => none
  | state, .receive message => if state.running then some (state.receive message) else none
  | state, .close => if state.running then some state.close else none
  | state, .wake n waking => do
      let request ← state.requests[n]?
      match request.watchdog with
      | .watching =>
          let ending ← request.ending? waking
          return state.setRequest n { request with watchdog := .ending ending }
      | _ => none
  | state, .clean n chance => do
      let request ← state.requests[n]?
      match request.watchdog with
      | .ending ending => return state.clean n request ending chance
      | _ => none
  | state, .remove n =>
      if n ∈ state.removals then
        some ({ state with removals := state.removals.filter (· != n) }.removePending n)
      else none

/-! ## What is conserved -/

/-- A reply that a request may be answered with: one that the server sent under its id,
or the end of the transport. -/
def State.Own (state : State) (n : Nat) (reply : Reply) : Prop :=
  reply = .terminated ∧ state.running = false ∨
    ∃ message ∈ state.received, message.answer? = some (n, reply)

/-- Every caller has ended, and what it left behind has been done. -/
structure State.Quiet (state : State) : Prop where
  callers : ∀ request ∈ state.requests, request.stage = .ended
  watchdogs : ∀ request ∈ state.requests,
    request.watchdog = .absent ∨ ∃ sent, request.watchdog = .done sent
  removals : state.removals = []

/-- The end of a caller that does not wait for its answer any more. -/
def Label.isCancel : Label → Bool
  | .cancel _ _ => true
  | _ => false

/-- A request can end without its caller going away. -/
def State.Ends (state : State) (n : Nat) : Prop :=
  ∃ labels target, ∃ ended : Request, run step state labels = some target ∧
    (∀ label ∈ labels, label.isCancel = false) ∧ target.requests[n]? = some ended ∧
      ended.stage = .ended

/-- Few requests are pending; each that was registered has one outcome when its caller
has ended, which it always can, and an answer is its own; and in the end no map has an
entry. -/
structure Conserved (state : State) : Prop where
  bounded : state.pending.length ≤ maxPendingRequests
  once : ∀ request ∈ state.requests, request.registered = true →
    request.outcomes.length = if request.stage = .ended then 1 else 0
  own : ∀ (n : Nat) (request : Request), state.requests[n]? = some request → ∀ reply,
    .answered reply ∈ request.outcomes → state.Own n reply
  ends : ∀ (n : Nat) (request : Request), state.requests[n]? = some request →
    request.registered = true → state.Ends n
  released : state.Quiet → state.pending = [] ∧ state.collectors = []

/-- A withdrawal of a pending request finds the map unlocked, or a runtime. -/
def Reaches (state : State) (n : Nat) (chance : Chance) : Prop :=
  n ∈ state.pending → chance.lock ≠ .busyOutside

/-- No streaming call is cancelled between the registration of its collector and that of
its request, or before the collector of a refused one is taken away; and a withdrawal
that finds the map locked has a runtime for the removal. -/
def Released (state : State) : Label → Prop
  | .cancel n chance => ∀ request ∈ state.requests[n]?,
      if request.streaming then request.stage ≠ .registering ∧ request.stage ≠ .refused
      else Reaches state n chance
  | .send n taken chance => ∀ request ∈ state.requests[n]?,
      taken = false → request.streaming = false → Reaches state n chance
  | .giveUp n chance | .clean n chance => Reaches state n chance
  | _ => True

/-- The entry of a request will be taken away by its caller or by its watchdog. -/
def Request.Held (request : Request) : Prop :=
  if request.streaming then
    request.watchdog = .watching ∨ request.watchdog = .ending .timedOut ∨
      request.watchdog = .ending .nobodyWaiting
  else request.stage = .sending ∨ request.stage = .waiting

/-- The collector of a request will be taken away. -/
def Request.Collects (request : Request) : Prop :=
  request.streaming = true ∧
    (request.registered = false ∧ (request.stage = .registering ∨ request.stage = .refused) ∨
      request.watchdog = .watching ∨ ∃ ending, request.watchdog = .ending ending)

/-- A reply is on its way to the caller, or has arrived. -/
def Request.Carries (request : Request) (reply : Reply) : Prop :=
  request.slot = .filled reply ∨ request.watchdog = .ending (.settled (.answered reply)) ∨
    request.watchdog = .done (some (.answered reply)) ∨ .answered reply ∈ request.outcomes

/-- How far a request is, with what its watchdog and its caller have. -/
structure Sound (state : State) (n : Nat) (request : Request) : Prop where
  own : ∀ reply, request.Carries reply → state.Own n reply
  live : request.stage ≠ .ended → request.outcomes = []
  once : request.registered = true → request.stage = .ended → request.outcomes.length = 1
  early : request.registered = false → request.watchdog = .absent ∧
    request.stage ≠ .sending ∧ request.stage ≠ .unsending ∧ request.stage ≠ .waiting
  late : request.registered = true → request.stage ≠ .collecting ∧
    request.stage ≠ .registering ∧ request.stage ≠ .refused
  streams : request.streaming = true → request.registered = true → request.watchdog ≠ .absent
  calls : request.streaming = false → request.watchdog = .absent ∧ request.stage ≠ .unsending ∧
    request.stage ≠ .collecting ∧ request.stage ≠ .refused
  nobody : request.watchdog = .ending .nobodyWaiting ∨ request.watchdog = .done none →
    request.stage = .ended

/-- A request and its entries in the maps. -/
structure Fits (state : State) (n : Nat) (request : Request) : Prop where
  held : n ∈ state.pending → request.slot = .waiting ∧ request.registered = true ∧
    (request.Held ∨ n ∈ state.removals)
  collects : n ∈ state.collectors → request.Collects
  sound : Sound state n request

/-- What every step of the connection keeps. -/
structure Carried (state : State) : Prop where
  bounded : state.pending.length ≤ maxPendingRequests
  fits : ∀ (n : Nat) (request : Request), state.requests[n]? = some request → Fits state n request
  pending : ∀ n ∈ state.pending, n < state.requests.length
  collectors : ∀ n ∈ state.collectors, n < state.requests.length

variable {state next : State} {n : Nat} {request other : Request} {reply : Reply}
  {chance : Chance}

theorem Sound.frame (sound : Sound state n request)
    (own : ∀ reply, state.Own n reply → next.Own n reply) : Sound next n request where
  own reply carries := own reply (sound.own reply carries)
  live := sound.live
  once := sound.once
  early := sound.early
  late := sound.late
  streams := sound.streams
  calls := sound.calls
  nobody := sound.nobody

/-- What else has changed does not matter to a request. -/
theorem Fits.frame (fits : Fits state n request)
    (pending : n ∈ next.pending → n ∈ state.pending)
    (collectors : n ∈ next.collectors → n ∈ state.collectors)
    (removals : n ∈ state.removals → n ∈ next.removals)
    (own : ∀ reply, state.Own n reply → next.Own n reply) : Fits next n request where
  held := by
    intro mem
    rcases fits.held (pending mem) with ⟨waiting, registered, held⟩
    exact ⟨waiting, registered, held.imp_right removals⟩
  collects mem := fits.collects (collectors mem)
  sound := fits.sound.frame own

/-- A step that changes no request, and only takes away from the maps. -/
theorem Carried.frame (carried : Carried state) (requests : next.requests = state.requests)
    (pending : next.pending.Sublist state.pending)
    (collectors : ∀ m ∈ next.collectors, m ∈ state.collectors)
    (removals : ∀ m ∈ state.removals, m ∈ next.removals)
    (own : ∀ m reply, state.Own m reply → next.Own m reply) : Carried next where
  bounded := Nat.le_trans pending.length_le carried.bounded
  fits := by
    intro m found foundEq
    rw [requests] at foundEq
    exact (carried.fits m found foundEq).frame (fun mem => pending.subset mem) (collectors m)
      (removals m) (own m)
  pending := by
    intro m mem
    rw [requests]
    exact carried.pending m (pending.subset mem)
  collectors := by
    intro m mem
    rw [requests]
    exact carried.collectors m (collectors m mem)

/-- A step that changes one request. -/
theorem Carried.update (carried : Carried state) (there : state.requests[n]? = some request)
    (requests : next.requests = state.requests.set n other)
    (pending : ∀ m ≠ n, m ∈ next.pending → m ∈ state.pending)
    (collectors : ∀ m ≠ n, m ∈ next.collectors → m ∈ state.collectors)
    (removals : ∀ m ≠ n, m ∈ state.removals → m ∈ next.removals)
    (own : ∀ m reply, state.Own m reply → next.Own m reply)
    (bounded : next.pending.length ≤ maxPendingRequests) (fits : Fits next n other) :
    Carried next where
  bounded := bounded
  fits := by
    intro m found foundEq
    rw [requests, List.getElem?_set] at foundEq
    split at foundEq
    · next same =>
      subst same
      split at foundEq
      · cases foundEq
        exact fits
      · cases foundEq
    · next different =>
      have apart : m ≠ n := fun same => different same.symm
      exact (carried.fits m found foundEq).frame (pending m apart) (collectors m apart)
        (removals m apart) (own m)
  pending := by
    intro m mem
    rw [requests, List.length_set]
    by_cases same : m = n
    · subst same
      exact (List.getElem?_eq_some_iff.mp there).1
    · exact carried.pending m (pending m same mem)
  collectors := by
    intro m mem
    rw [requests, List.length_set]
    by_cases same : m = n
    · subst same
      exact (List.getElem?_eq_some_iff.mp there).1
    · exact carried.collectors m (collectors m same mem)

/-- A step that changes one request and no map. -/
theorem Carried.setRequest (carried : Carried state) (there : state.requests[n]? = some request)
    (held : n ∈ state.pending → other.slot = .waiting ∧ other.registered = true ∧
      (other.Held ∨ n ∈ state.removals))
    (collects : n ∈ state.collectors → other.Collects) (sound : Sound state n other) :
    Carried (state.setRequest n other) := by
  have own : ∀ m reply, state.Own m reply → (state.setRequest n other).Own m reply :=
    fun _ _ here => here
  exact carried.update there rfl (fun _ _ mem => mem) (fun _ _ mem => mem) (fun _ _ mem => mem) own
    carried.bounded ⟨held, collects, sound.frame (own n)⟩

/-! ## Withdrawals -/

/-- A request whose sender has gone with its entry. -/
def Request.released (request : Request) : Lock → Request
  | .free => { request with slot := request.slot.drop }
  | _ => request

theorem release_requests (lock : Lock) (there : state.requests[n]? = some request) :
    ((state.setRequest n other).release n lock).requests
      = state.requests.set n (other.released lock) := by
  have inside := (List.getElem?_eq_some_iff.mp there).1
  cases lock with
  | free =>
      apply List.ext_getElem?
      intro m
      simp only [State.release, State.removePending, State.setRequest, Request.released,
        List.getElem?_modify, List.getElem?_set]
      by_cases same : n = m
      · subst same
        simp [inside]
      · simp [same]
  | busy | busyOutside => rfl

theorem Slot.drop_eq_filled_iff {slot : Slot} :
    slot.drop = .filled reply ↔ slot = .filled reply := by
  cases slot <;> simp [Slot.drop]

theorem Sound.released (sound : Sound state n request) (lock : Lock) :
    Sound state n (request.released lock) := by
  cases lock with
  | free =>
      refine ⟨?_, sound.live, sound.once, sound.early, sound.late, sound.streams, sound.calls,
        sound.nobody⟩
      intro reply carries
      apply sound.own reply
      exact carries.imp_left Slot.drop_eq_filled_iff.mp
  | busy | busyOutside => exact sound

theorem mem_filter_ne {m : Nat} {ids : List Nat} :
    m ∈ ids.filter (· != n) ↔ m ∈ ids ∧ m ≠ n := by
  simp

/-- A request is withdrawn by its caller or by its watchdog. -/
theorem Carried.release (carried : Carried state) (there : state.requests[n]? = some request)
    (slot : other.slot = request.slot) (registered : other.registered = request.registered)
    (collects : n ∈ state.collectors → other.Collects) (sound : Sound state n other)
    (reaches : Reaches state n chance) :
    Carried ((state.setRequest n other).release n chance.lock) := by
  have pending : ((state.setRequest n other).release n chance.lock).pending.Sublist
      state.pending := by
    cases chance.lock with
    | free => exact List.filter_sublist
    | busy | busyOutside => exact List.Sublist.refl _
  have collectors : ((state.setRequest n other).release n chance.lock).collectors
      = state.collectors := by
    cases chance.lock <;> rfl
  have removals : ∀ m ∈ state.removals,
      m ∈ ((state.setRequest n other).release n chance.lock).removals := by
    intro m mem
    cases chance.lock with
    | busy => exact List.mem_append_left _ mem
    | free | busyOutside => exact mem
  have own : ∀ m reply, state.Own m reply →
      ((state.setRequest n other).release n chance.lock).Own m reply := by
    intro m reply here
    cases chance.lock <;> exact here
  apply carried.update there (release_requests chance.lock there)
  · intro m _ mem
    exact pending.subset mem
  · intro m _ mem
    rw [collectors] at mem
    exact mem
  · intro m _ mem
    exact removals m mem
  · exact own
  · exact Nat.le_trans pending.length_le carried.bounded
  · refine ⟨?_, ?_, (sound.released chance.lock).frame (own n)⟩
    · intro mem
      have was := pending.subset mem
      rcases (carried.fits n request there).held was with ⟨waiting, isRegistered, -⟩
      cases lock : chance.lock with
      | free =>
          rw [lock] at mem
          exact absurd rfl (mem_filter_ne.mp mem).2
      | busy =>
          refine ⟨slot.trans waiting, registered.trans isRegistered, Or.inr ?_⟩
          exact List.mem_append_right _ List.mem_cons_self
      | busyOutside => exact absurd lock (reaches was)
    · intro mem
      rw [collectors] at mem
      have kept := collects mem
      cases chance.lock <;> exact kept

theorem Carried.withdraw {method : String} (carried : Carried state)
    (there : state.requests[n]? = some request)
    (slot : other.slot = request.slot) (registered : other.registered = request.registered)
    (collects : n ∈ state.collectors → other.Collects) (sound : Sound state n other)
    (reaches : Reaches state n chance) :
    Carried ((state.setRequest n other).withdraw n method chance) := by
  have released := carried.release there slot registered collects sound reaches
  unfold State.withdraw
  dsimp only
  split
  · exact released.frame rfl (List.Sublist.refl _) (fun _ mem => mem) (fun _ mem => mem)
      fun _ _ own => own
  · exact released

theorem removePending_requests :
    (state.removePending n).requests = state.requests.modify n fun request =>
      { request with slot := request.slot.drop } :=
  rfl

/-- Taking an entry away leaves nothing that was wanted. -/
theorem Carried.removePending (carried : Carried state) : Carried (state.removePending n) := by
  have own : ∀ m reply, state.Own m reply → (state.removePending n).Own m reply :=
    fun _ _ here => here
  cases there : state.requests[n]? with
  | none =>
      have requests : (state.removePending n).requests = state.requests := by
        apply List.ext_getElem?
        intro m
        rw [removePending_requests, List.getElem?_modify]
        by_cases same : n = m
        · subst same
          simp [there]
        · simp [same]
      exact carried.frame requests List.filter_sublist (fun _ mem => mem) (fun _ mem => mem) own
  | some request =>
      have fits := carried.fits n request there
      have inside := (List.getElem?_eq_some_iff.mp there).1
      have requests : (state.removePending n).requests
          = state.requests.set n (request.released .free) := by
        apply List.ext_getElem?
        intro m
        rw [removePending_requests, List.getElem?_modify, List.getElem?_set]
        by_cases same : n = m
        · subst same
          rw [if_pos rfl, if_pos inside, there]
          simp [Request.released]
        · simp [same]
      apply carried.update there requests
      · intro m _ mem
        exact (mem_filter_ne.mp mem).1
      · intro m _ mem
        exact mem
      · intro m _ mem
        exact mem
      · exact own
      · exact Nat.le_trans (List.length_filter_le _ _) carried.bounded
      · refine ⟨?_, fits.collects, (fits.sound.released .free).frame (own n)⟩
        intro mem
        exact absurd rfl (mem_filter_ne.mp mem).2

/-! ## The response loop -/

theorem Sound.filled (sound : Sound state n request) (own : state.Own n reply) :
    Sound state n { request with slot := .filled reply } := by
  refine ⟨?_, sound.live, sound.once, sound.early, sound.late, sound.streams, sound.calls,
    sound.nobody⟩
  intro other carries
  rcases carries with filled | later
  · cases filled
    exact own
  · exact sound.own other (Or.inr later)

/-- An answer goes to the request that it is of. -/
theorem Carried.deliver (carried : Carried state) (answer : state.Own n reply) :
    Carried (state.deliver n reply) := by
  unfold State.deliver
  split
  · next mem =>
    have inside := carried.pending n mem
    have there := List.getElem?_eq_getElem inside
    have fits := carried.fits n _ there
    have requests : (state.requests.modify n fun request => { request with slot := .filled reply })
        = state.requests.set n { state.requests[n] with slot := .filled reply } := by
      apply List.ext_getElem?
      intro m
      rw [List.getElem?_modify, List.getElem?_set]
      by_cases same : n = m
      · subst same
        rw [if_pos rfl, if_pos inside, there]
        simp
      · simp [same]
    apply carried.update there requests
    · intro m _ here
      exact (mem_filter_ne.mp here).1
    · intro m _ here
      exact here
    · intro m _ here
      exact here
    · intro m other own
      exact own
    · exact Nat.le_trans (List.length_filter_le _ _) carried.bounded
    · refine ⟨?_, fits.collects, (fits.sound.filled answer).frame fun _ own => own⟩
      intro here
      exact absurd rfl (mem_filter_ne.mp here).2
  · exact carried

theorem Carried.receive (carried : Carried state) (message : Message) :
    Carried (state.receive message) := by
  have own : ∀ m reply, state.Own m reply →
      State.Own { state with received := state.received ++ [message] } m reply := by
    intro m reply here
    rcases here with terminated | ⟨earlier, mem, answers⟩
    · exact Or.inl terminated
    · exact Or.inr ⟨earlier, List.mem_append_left _ mem, answers⟩
  have taken : Carried { state with received := state.received ++ [message] } :=
    carried.frame rfl (List.Sublist.refl _) (fun _ mem => mem) (fun _ mem => mem) own
  unfold State.receive
  dsimp only
  split
  · next m reply answers =>
    apply taken.deliver
    exact Or.inr ⟨message, List.mem_append_right _ List.mem_cons_self, answers⟩
  · exact taken

theorem Carried.close (carried : Carried state) : Carried state.close := by
  have own : ∀ m reply, state.Own m reply → state.close.Own m reply := by
    intro m reply here
    rcases here with terminated | sent
    · exact Or.inl ⟨terminated.1, rfl⟩
    · exact Or.inr sent
  have answered : ∀ m, state.close.Own m .terminated := fun _ => Or.inl ⟨rfl, rfl⟩
  constructor
  · exact Nat.zero_le _
  · intro m found foundEq
    simp only [State.close, List.getElem?_mapIdx, Option.map_eq_some_iff] at foundEq
    rcases foundEq with ⟨request, there, rfl⟩
    have fits := carried.fits m request there
    split
    · refine ⟨?_, fits.collects, (fits.sound.frame (own m)).filled (answered m)⟩
      intro mem
      cases mem
    · refine ⟨?_, fits.collects, fits.sound.frame (own m)⟩
      intro mem
      cases mem
  · intro m mem
    cases mem
  · intro m mem
    have inside := carried.collectors m mem
    simpa [State.close] using inside

/-! ## Callers -/

theorem Sound.finish {outcome : Outcome} (sound : Sound state n request)
    (live : request.stage ≠ .ended)
    (own : ∀ reply, outcome = .answered reply → state.Own n reply) :
    Sound state n (request.finish outcome) where
  own := by
    intro reply carries
    rcases carries with filled | ending | done | ended
    · exact sound.own reply (Or.inl filled)
    · exact sound.own reply (Or.inr (Or.inl ending))
    · exact sound.own reply (Or.inr (Or.inr (Or.inl done)))
    · rcases List.mem_append.mp ended with earlier | this
      · exact sound.own reply (Or.inr (Or.inr (Or.inr earlier)))
      · exact own reply (List.mem_singleton.mp this).symm
  live notEnded := absurd rfl notEnded
  once _ _ := by
    simp [Request.finish, sound.live live]
  early unregistered := by
    refine ⟨(sound.early unregistered).1, ?_, ?_, ?_⟩ <;> simp [Request.finish]
  late _ := by
    simp [Request.finish]
  streams := sound.streams
  calls call := by
    refine ⟨(sound.calls call).1, ?_, ?_, ?_⟩ <;> simp [Request.finish]
  nobody _ := rfl

theorem Sound.registered (sound : Sound state n request)
    (sent : request.stage = .sending ∨ request.stage = .unsending ∨ request.stage = .waiting) :
    request.registered = true := by
  cases registered : request.registered with
  | true => rfl
  | false =>
      have early := (sound.early registered).2
      rcases sent with sending | unsending | waiting
      · exact absurd sending early.1
      · exact absurd unsending early.2.1
      · exact absurd waiting early.2.2

theorem Sound.unregistered (sound : Sound state n request)
    (before : request.stage = .collecting ∨ request.stage = .registering ∨
      request.stage = .refused) : request.registered = false := by
  cases registered : request.registered with
  | false => rfl
  | true =>
      have late := sound.late registered
      rcases before with collecting | registering | refused
      · exact absurd collecting late.1
      · exact absurd registering late.2.1
      · exact absurd refused late.2.2

/-- The end of its caller leaves a registered request to its watchdog. -/
theorem Request.Collects.finish (collects : request.Collects)
    (registered : request.registered = true) (outcome : Outcome) :
    (request.finish outcome).Collects := by
  rcases collects with ⟨streaming, before | watched⟩
  · rw [registered] at before
    cases before.1
  · exact ⟨streaming, Or.inr watched⟩

theorem Request.Held.finish (held : request.Held) (streaming : request.streaming = true)
    (outcome : Outcome) : (request.finish outcome).Held := by
  unfold Held at *
  rw [if_pos streaming] at held
  rw [if_pos (show (request.finish outcome).streaming = true from streaming)]
  exact held

/-- A streaming call ends, and its watchdog does the rest. -/
theorem Carried.finish_streaming {outcome : Outcome} (carried : Carried state)
    (there : state.requests[n]? = some request) (streaming : request.streaming = true)
    (registered : request.registered = true) (live : request.stage ≠ .ended)
    (own : ∀ reply, outcome = .answered reply → state.Own n reply) :
    Carried (state.setRequest n (request.finish outcome)) := by
  have fits := carried.fits n request there
  apply carried.setRequest there
  · intro mem
    rcases fits.held mem with ⟨waiting, isRegistered, held⟩
    exact ⟨waiting, isRegistered, held.imp_left fun held => held.finish streaming outcome⟩
  · intro mem
    exact (fits.collects mem).finish registered outcome
  · exact fits.sound.finish live own

/-- A request that is not registered goes on. -/
theorem Sound.restage (sound : Sound state n request) (unregistered : request.registered = false)
    (live : request.stage ≠ .ended) {stage : Stage}
    (early : stage ≠ .sending ∧ stage ≠ .unsending ∧ stage ≠ .waiting)
    (streams : request.streaming = true ∨ stage ≠ .collecting ∧ stage ≠ .refused) :
    Sound state n { request with stage := stage } where
  own := sound.own
  live _ := sound.live live
  once registered := by
    rw [unregistered] at registered
    cases registered
  early _ := ⟨(sound.early unregistered).1, early⟩
  late registered := by
    rw [unregistered] at registered
    cases registered
  streams := sound.streams
  calls call := by
    rcases streams with streaming | kept
    · rw [streaming] at call
      cases call
    · exact ⟨(sound.calls call).1, early.2.1, kept⟩
  nobody ended := by
    have absent := (sound.early unregistered).1
    rw [absent] at ended
    simp at ended

theorem Carried.start (carried : Carried state) (method : String) (streaming : Bool) :
    Carried (state.start method streaming) := by
  constructor
  · exact carried.bounded
  · intro m found foundEq
    simp only [State.start, List.getElem?_append] at foundEq
    split at foundEq
    · exact (carried.fits m found foundEq).frame (fun mem => mem) (fun mem => mem)
        (fun mem => mem) fun _ own => own
    · next outside =>
      have beyond : ∀ ids : List Nat, (∀ id ∈ ids, id < state.requests.length) → m ∉ ids :=
        fun ids inside mem => outside (inside m mem)
      rw [List.getElem?_singleton] at foundEq
      split at foundEq
      · cases foundEq
        refine ⟨?_, ?_, ?_, ?_, ?_, ?_, ?_, ?_, ?_, ?_⟩
        · intro mem
          exact absurd mem (beyond state.pending carried.pending)
        · intro mem
          exact absurd mem (beyond state.collectors carried.collectors)
        · intro reply carries
          simp [Request.Carries] at carries
        · intro
          rfl
        · intro registered
          cases registered
        · intro
          cases streaming <;> simp
        · intro registered
          cases registered
        · intro _ registered
          cases registered
        · intro call
          cases streaming with
          | true => cases call
          | false => simp
        · intro ended
          simp at ended
      · cases foundEq
  · intro m mem
    simp only [State.start, List.length_append, List.length_singleton]
    exact Nat.lt_succ_of_lt (carried.pending m mem)
  · intro m mem
    simp only [State.start, List.length_append, List.length_singleton]
    exact Nat.lt_succ_of_lt (carried.collectors m mem)

/-- Nothing is pending for a request that is not registered. -/
theorem Fits.not_pending (fits : Fits state n request)
    (unregistered : request.registered = false) : n ∉ state.pending := by
  intro mem
  have registered := (fits.held mem).2.1
  rw [unregistered] at registered
  cases registered

theorem Carried.collect (carried : Carried state) (there : state.requests[n]? = some request)
    (collecting : request.stage = .collecting) :
    Carried ({ state with collectors := state.collectors ++ [n] }.setRequest n
      { request with stage := .registering }) := by
  have fits := carried.fits n request there
  have unregistered := fits.sound.unregistered (Or.inl collecting)
  have streaming : request.streaming = true := by
    cases streaming : request.streaming with
    | true => rfl
    | false => exact absurd collecting (fits.sound.calls streaming).2.2.1
  have own : ∀ m reply, state.Own m reply →
      (State.setRequest { state with collectors := state.collectors ++ [n] } n
        { request with stage := .registering }).Own m reply := fun _ _ here => here
  apply carried.update there rfl
  · intro m _ mem
    exact mem
  · intro m apart mem
    rcases List.mem_append.mp mem with earlier | this
    · exact earlier
    · exact absurd (List.mem_singleton.mp this) apart
  · intro m _ mem
    exact mem
  · exact own
  · exact carried.bounded
  · refine ⟨?_, ?_, ?_⟩
    · intro mem
      exact absurd mem (fits.not_pending unregistered)
    · intro
      exact ⟨streaming, Or.inl ⟨unregistered, Or.inl rfl⟩⟩
    · apply (fits.sound.frame (own n)).restage unregistered
      · rw [collecting]
        simp
      · simp
      · exact Or.inl streaming

/-- A call that is refused has left nothing. -/
theorem Carried.refuse (carried : Carried state) (there : state.requests[n]? = some request)
    (unregistered : request.registered = false) (live : request.stage ≠ .ended)
    (released : n ∉ state.collectors) :
    Carried (state.setRequest n (request.finish .limitReached)) := by
  have fits := carried.fits n request there
  apply carried.setRequest there
  · intro mem
    exact absurd mem (fits.not_pending unregistered)
  · intro mem
    exact absurd mem released
  · apply fits.sound.finish live
    intro reply answered
    cases answered

/-- Only a streaming call has a collector. -/
theorem Fits.not_collecting (fits : Fits state n request) (call : request.streaming = false) :
    n ∉ state.collectors := by
  intro mem
  have streaming := (fits.collects mem).1
  rw [call] at streaming
  cases streaming

theorem Sound.register (sound : Sound state n request) (live : request.stage ≠ .ended) :
    Sound state n
      { request with
        stage := .sending
        slot := .waiting
        registered := true
        watchdog := if request.streaming then .watching else .absent } where
  own := by
    intro reply carries
    apply sound.own reply
    rcases carries with filled | ending | done | ended
    · cases filled
    · dsimp only at ending
      split at ending <;> cases ending
    · dsimp only at done
      split at done <;> cases done
    · exact Or.inr (Or.inr (Or.inr ended))
  live _ := sound.live live
  once _ ended := by
    simp at ended
  early registered := by
    cases registered
  late _ := by
    simp
  streams streaming _ := by
    simp only at streaming
    simp [streaming]
  calls call := by
    simp only at call
    simp [call]
  nobody ended := by
    dsimp only at ended
    split at ended <;> simp at ended

theorem Carried.register (carried : Carried state) (there : state.requests[n]? = some request)
    (registering : request.stage = .registering) : Carried (state.register n request) := by
  have fits := carried.fits n request there
  have sound := fits.sound
  have unregistered := sound.unregistered (Or.inr (Or.inl registering))
  have live : request.stage ≠ .ended := by
    rw [registering]
    simp
  have own : ∀ other : Request, ∀ m reply, state.Own m reply →
      (State.setRequest { state with pending := state.pending ++ [n] } n other).Own m reply :=
    fun _ _ _ here => here
  unfold State.register
  split
  · split
    · next streaming =>
      apply carried.setRequest there
      · intro mem
        exact absurd mem (fits.not_pending unregistered)
      · intro
        exact ⟨streaming, Or.inl ⟨unregistered, Or.inr rfl⟩⟩
      · apply sound.restage unregistered live
        · simp
        · exact Or.inl streaming
    · next call =>
      rw [Bool.not_eq_true] at call
      exact carried.refuse there unregistered live (fits.not_collecting call)
  · next few =>
    apply carried.update there rfl
    · intro m apart mem
      rcases List.mem_append.mp mem with earlier | this
      · exact earlier
      · exact absurd (List.mem_singleton.mp this) apart
    · intro m _ mem
      exact mem
    · intro m _ mem
      exact mem
    · exact own _
    · simp only [State.setRequest, List.length_append, List.length_singleton]
      omega
    · refine ⟨?_, ?_, (sound.frame (own _ n)).register live⟩
      · intro
        refine ⟨rfl, rfl, Or.inl ?_⟩
        unfold Request.Held
        cases request.streaming <;> simp
      · intro mem
        have streaming := (fits.collects mem).1
        refine ⟨streaming, Or.inr (Or.inl ?_)⟩
        simp [streaming]

theorem Carried.removeCollector (carried : Carried state) : Carried (state.removeCollector n) :=
  carried.frame rfl (List.Sublist.refl _) (fun _ mem => (mem_filter_ne.mp mem).1)
    (fun _ mem => mem) fun _ _ own => own

/-- A call that waits for its answer takes it. -/
theorem Carried.settle {outcome : Outcome} (carried : Carried state)
    (there : state.requests[n]? = some request) (waiting : request.stage = .waiting)
    (call : request.streaming = false) (resolved : request.slot.outcome? = some outcome) :
    Carried (state.setRequest n (request.finish outcome)) := by
  have fits := carried.fits n request there
  apply carried.setRequest there
  · intro mem
    rw [(fits.held mem).1] at resolved
    cases resolved
  · intro mem
    exact absurd mem (fits.not_collecting call)
  · apply fits.sound.finish
    · rw [waiting]
      simp
    · intro reply answered
      subst answered
      apply fits.sound.own reply
      cases slot : request.slot with
      | filled other =>
          rw [slot] at resolved
          cases resolved
          exact Or.inl slot
      | waiting | closed =>
          rw [slot] at resolved
          cases resolved

/-- A request that was sent waits, or one that was not is about to go. -/
theorem Sound.proceed (sound : Sound state n request) (sending : request.stage = .sending)
    {stage : Stage} (later : stage = .waiting ∨ stage = .unsending ∧ request.streaming = true) :
    Sound state n { request with stage := stage } where
  own := sound.own
  live _ := by
    apply sound.live
    rw [sending]
    simp
  once _ ended := by
    simp only at ended
    subst ended
    simp at later
  early unregistered := by
    exact absurd sending (sound.early unregistered).2.1
  late _ := by
    rcases later with waiting | unsending
    · subst waiting
      simp
    · rw [unsending.1]
      simp
  streams := sound.streams
  calls call := by
    have kept := sound.calls call
    rcases later with waiting | unsending
    · subst waiting
      simp [kept.1]
    · have streaming := unsending.2
      simp only at call
      rw [call] at streaming
      cases streaming
  nobody ended := by
    have gone := sound.nobody ended
    rw [sending] at gone
    cases gone

theorem Carried.proceed {stage : Stage} (carried : Carried state)
    (there : state.requests[n]? = some request) (sending : request.stage = .sending)
    (later : stage = .waiting ∨ stage = .unsending ∧ request.streaming = true) :
    Carried (state.setRequest n { request with stage := stage }) := by
  have fits := carried.fits n request there
  have registered := fits.sound.registered (Or.inl sending)
  apply carried.setRequest there
  · intro mem
    rcases fits.held mem with ⟨waiting, -, held⟩
    refine ⟨waiting, registered, held.imp_left ?_⟩
    intro held
    unfold Request.Held at *
    cases streaming : request.streaming with
    | true =>
        rw [if_pos streaming] at held
        exact held
    | false =>
        rcases later with waits | unsending
        · exact Or.inr waits
        · rw [unsending.2] at streaming
          cases streaming
  · intro mem
    rcases fits.collects mem with ⟨streaming, before | watched⟩
    · rw [registered] at before
      cases before.1
    · exact ⟨streaming, Or.inr watched⟩
  · exact fits.sound.proceed sending later

theorem Carried.send {taken : Bool} (carried : Carried state)
    (there : state.requests[n]? = some request) (sending : request.stage = .sending)
    (reaches : taken = false → request.streaming = false → Reaches state n chance) :
    Carried (state.send n request taken chance) := by
  have fits := carried.fits n request there
  unfold State.send
  split
  · exact carried.proceed there sending (Or.inl rfl)
  · next notTaken =>
    split
    · next streaming => exact carried.proceed there sending (Or.inr ⟨rfl, streaming⟩)
    · next call =>
      rw [Bool.not_eq_true] at notTaken call
      refine carried.release there ?_ ?_ ?_ ?_ ?_
      · rfl
      · rfl
      · intro mem
        exact absurd mem (fits.not_collecting call)
      · apply fits.sound.finish
        · rw [sending]
          simp
        · intro reply answered
          cases answered
      · exact reaches notTaken call

/-- A streaming call that was not sent takes its entry away. -/
theorem Carried.unregister (carried : Carried state) (there : state.requests[n]? = some request)
    (unsending : request.stage = .unsending) :
    Carried ((state.setRequest n (request.finish .unsent)).removePending n) := by
  have fits := carried.fits n request there
  have registered := fits.sound.registered (Or.inr (Or.inl unsending))
  have streaming : request.streaming = true := by
    cases streaming : request.streaming with
    | true => rfl
    | false => exact absurd unsending (fits.sound.calls streaming).2.1
  have live : request.stage ≠ .ended := by
    rw [unsending]
    simp
  have unanswered : ∀ reply, Outcome.unsent = .answered reply → state.Own n reply := by
    intro reply answered
    cases answered
  exact (carried.finish_streaming there streaming registered live unanswered).removePending

theorem Carried.cancel (carried : Carried state) (there : state.requests[n]? = some request)
    (live : request.stage ≠ .ended)
    (kept : if request.streaming then request.stage ≠ .registering ∧ request.stage ≠ .refused
      else Reaches state n chance) :
    Carried (state.cancel n request chance) := by
  have fits := carried.fits n request there
  have unanswered : ∀ reply, Outcome.withdrawn = .answered reply → state.Own n reply := by
    intro reply answered
    cases answered
  unfold State.cancel
  split
  · next registered =>
    dsimp only
    split
    · next streaming =>
      exact carried.finish_streaming there streaming registered live unanswered
    · next call =>
      rw [if_neg call] at kept
      rw [Bool.not_eq_true] at call
      refine carried.withdraw there ?_ ?_ ?_ ?_ ?_
      · rfl
      · rfl
      · intro mem
        exact absurd mem (fits.not_collecting call)
      · exact fits.sound.finish live unanswered
      · exact kept
  · next unregistered =>
    rw [Bool.not_eq_true] at unregistered
    apply carried.setRequest there
    · intro mem
      exact absurd mem (fits.not_pending unregistered)
    · intro mem
      rcases fits.collects mem with ⟨streaming, before | watched⟩
      · rw [if_pos streaming] at kept
        rcases before.2 with registering | refused
        · exact absurd registering kept.1
        · exact absurd refused kept.2
      · rw [(fits.sound.early unregistered).1] at watched
        simp at watched
    · apply fits.sound.restage unregistered live
      · simp
      · simp

/-! ## Watchdogs -/

/-- A watchdog goes on; what it carries is the request's own. -/
theorem Sound.rewatch (sound : Sound state n request) (streaming : request.streaming = true)
    (registered : request.registered = true) {watchdog : Watchdog}
    (present : watchdog ≠ .absent)
    (own : ∀ reply, watchdog = .ending (.settled (.answered reply)) ∨
      watchdog = .done (some (.answered reply)) → state.Own n reply)
    (nobody : watchdog = .ending .nobodyWaiting ∨ watchdog = .done none →
      request.stage = .ended) :
    Sound state n { request with watchdog := watchdog } where
  own := by
    intro reply carries
    rcases carries with filled | ending | done | ended
    · exact sound.own reply (Or.inl filled)
    · exact own reply (Or.inl ending)
    · exact own reply (Or.inr done)
    · exact sound.own reply (Or.inr (Or.inr (Or.inr ended)))
  live := sound.live
  once := sound.once
  early unregistered := by
    simp only at unregistered
    rw [registered] at unregistered
    cases unregistered
  late := sound.late
  streams _ _ := present
  calls call := by
    simp only at call
    rw [streaming] at call
    cases call
  nobody := nobody

/-- A request with a watchdog is one of a streaming call that was registered. -/
theorem Sound.watched (sound : Sound state n request) (present : request.watchdog ≠ .absent) :
    request.streaming = true ∧ request.registered = true := by
  constructor
  · cases streaming : request.streaming with
    | true => rfl
    | false => exact absurd (sound.calls streaming).1 present
  · cases registered : request.registered with
    | true => rfl
    | false => exact absurd (sound.early registered).1 present

/-- A watchdog wakes up, and ends. -/
theorem Carried.wake {waking : Waking} {ending : Ending} (carried : Carried state)
    (there : state.requests[n]? = some request) (watching : request.watchdog = .watching)
    (ends : request.ending? waking = some ending) :
    Carried (state.setRequest n { request with watchdog := .ending ending }) := by
  have fits := carried.fits n request there
  have present : request.watchdog ≠ .absent := by
    rw [watching]
    simp
  rcases fits.sound.watched present with ⟨streaming, registered⟩
  apply carried.setRequest there
  · intro mem
    rcases fits.held mem with ⟨waiting, -, -⟩
    refine ⟨waiting, registered, Or.inl ?_⟩
    unfold Request.Held
    rw [if_pos (show ({ request with watchdog := .ending ending } : Request).streaming = true
      from streaming)]
    cases waking with
    | answer =>
        simp only [Request.ending?, waiting, Slot.outcome?] at ends
        cases ends
    | deadline =>
        cases ends
        exact Or.inr (Or.inl rfl)
    | closed =>
        simp only [Request.ending?] at ends
        split at ends
        · cases ends
          exact Or.inr (Or.inr rfl)
        · cases ends
  · intro
    exact ⟨streaming, Or.inr (Or.inr ⟨ending, rfl⟩)⟩
  · apply fits.sound.rewatch streaming registered
    · simp
    · rintro reply (settled | done)
      · cases settled
        cases waking with
        | answer =>
            cases slot : request.slot with
            | filled other =>
                simp only [Request.ending?, slot, Slot.outcome?, Option.map_some] at ends
                cases ends
                exact fits.sound.own reply (Or.inl slot)
            | waiting | closed =>
                simp only [Request.ending?, slot, Slot.outcome?] at ends
                cases ends
        | deadline => cases ends
        | closed =>
            simp only [Request.ending?] at ends
            split at ends <;> cases ends
      · cases done
    · rintro (nobody | done)
      · cases nobody
        cases waking with
        | answer =>
            cases slot : request.slot <;>
              simp [Request.ending?, slot, Slot.outcome?] at ends
        | deadline => cases ends
        | closed =>
            simp only [Request.ending?] at ends
            split at ends
            · next ended => exact ended
            · cases ends
      · cases done

theorem Carried.clean {ending : Ending} (carried : Carried state)
    (there : state.requests[n]? = some request) (ends : request.watchdog = .ending ending)
    (reaches : Reaches state n chance) : Carried (state.clean n request ending chance) := by
  have cleaned : Carried (state.removeCollector n) := carried.removeCollector
  have fits := cleaned.fits n request there
  have present : request.watchdog ≠ .absent := by
    rw [ends]
    simp
  rcases fits.sound.watched present with ⟨streaming, registered⟩
  have gone : n ∉ (state.removeCollector n).collectors := by
    intro mem
    exact absurd rfl (mem_filter_ne.mp mem).2
  unfold State.clean
  cases ending with
  | settled outcome =>
      apply cleaned.setRequest there
      · intro mem
        rcases fits.held mem with ⟨waiting, -, held⟩
        refine ⟨waiting, registered, held.imp_left ?_⟩
        intro held
        unfold Request.Held at held
        rw [if_pos streaming, ends] at held
        simp at held
      · intro mem
        exact absurd mem gone
      · apply fits.sound.rewatch streaming registered
        · simp
        · rintro reply (settled | done)
          · cases settled
          · cases done
            exact fits.sound.own reply (Or.inr (Or.inl ends))
        · simp
  | timedOut =>
      refine cleaned.withdraw there ?_ ?_ ?_ ?_ ?_
      · rfl
      · rfl
      · intro mem
        exact absurd mem gone
      · apply fits.sound.rewatch streaming registered <;> simp
      · exact reaches
  | nobodyWaiting =>
      refine cleaned.withdraw there ?_ ?_ ?_ ?_ ?_
      · rfl
      · rfl
      · intro mem
        exact absurd mem gone
      · apply fits.sound.rewatch streaming registered
        · simp
        · simp
        · intro
          exact fits.sound.nobody (Or.inl ends)
      · exact reaches

/-- The caller of a streaming call takes what its watchdog has sent. -/
theorem Carried.take {outcome : Outcome} (carried : Carried state)
    (there : state.requests[n]? = some request) (waiting : request.stage = .waiting)
    (done : request.watchdog = .done (some outcome)) :
    Carried (state.setRequest n (request.finish outcome)) := by
  have fits := carried.fits n request there
  have present : request.watchdog ≠ .absent := by
    rw [done]
    simp
  rcases fits.sound.watched present with ⟨streaming, registered⟩
  apply carried.finish_streaming there streaming registered
  · rw [waiting]
    simp
  · intro reply answered
    subst answered
    exact fits.sound.own reply (Or.inr (Or.inr (Or.inl done)))

/-- A task removes an entry. -/
theorem Carried.remove (carried : Carried state) :
    Carried ({ state with removals := state.removals.filter (· != n) }.removePending n) := by
  have removed : Carried (state.removePending n) := carried.removePending
  constructor
  · exact removed.bounded
  · intro m found foundEq
    have fits := removed.fits m found foundEq
    refine ⟨?_, fits.collects, fits.sound.frame fun _ own => own⟩
    intro mem
    rcases fits.held mem with ⟨waiting, registered, held⟩
    refine ⟨waiting, registered, held.imp_right ?_⟩
    intro here
    exact mem_filter_ne.mpr ⟨here, (mem_filter_ne.mp mem).2⟩
  · exact removed.pending
  · exact removed.collectors

/-! ## Runs -/

theorem guard_bind_eq_some_iff {α : Type} {holds : Prop} [Decidable holds] {rest : Option α}
    {target : α} :
    ((guard holds : Option Unit) >>= fun _ => rest) = some target ↔
      holds ∧ rest = some target := by
  by_cases met : holds <;> simp [guard, met]

/-- A step that meets the condition keeps everything. -/
theorem Carried.step {label : Label} (carried : Carried state) (meets : Released state label)
    (stepEq : Pending.step state label = some next) : Carried next := by
  cases label with
  | start method streaming =>
      cases stepEq
      exact carried.start method streaming
  | collect n =>
      rcases Option.bind_eq_some_iff.mp stepEq with ⟨request, there, rest⟩
      rcases guard_bind_eq_some_iff.mp rest with ⟨collecting, rest⟩
      cases rest
      exact carried.collect there collecting
  | register n =>
      rcases Option.bind_eq_some_iff.mp stepEq with ⟨request, there, rest⟩
      rcases guard_bind_eq_some_iff.mp rest with ⟨registering, rest⟩
      cases rest
      exact carried.register there registering
  | uncollect n =>
      rcases Option.bind_eq_some_iff.mp stepEq with ⟨request, there, rest⟩
      rcases guard_bind_eq_some_iff.mp rest with ⟨refused, rest⟩
      cases rest
      have cleaned : Carried (state.removeCollector n) := carried.removeCollector
      apply cleaned.refuse there
      · exact (carried.fits n request there).sound.unregistered (Or.inr (Or.inr refused))
      · rw [refused]
        simp
      · intro mem
        exact absurd rfl (mem_filter_ne.mp mem).2
  | send n taken chance =>
      rcases Option.bind_eq_some_iff.mp stepEq with ⟨request, there, rest⟩
      rcases guard_bind_eq_some_iff.mp rest with ⟨sending, rest⟩
      cases rest
      exact carried.send there sending (meets request there)
  | unregister n =>
      rcases Option.bind_eq_some_iff.mp stepEq with ⟨request, there, rest⟩
      rcases guard_bind_eq_some_iff.mp rest with ⟨unsending, rest⟩
      cases rest
      exact carried.unregister there unsending
  | settle n =>
      rcases Option.bind_eq_some_iff.mp stepEq with ⟨request, there, rest⟩
      rcases guard_bind_eq_some_iff.mp rest with ⟨⟨waiting, call⟩, rest⟩
      rcases Option.bind_eq_some_iff.mp rest with ⟨outcome, resolved, rest⟩
      cases rest
      exact carried.settle there waiting call resolved
  | giveUp n chance =>
      rcases Option.bind_eq_some_iff.mp stepEq with ⟨request, there, rest⟩
      rcases guard_bind_eq_some_iff.mp rest with ⟨⟨waiting, call⟩, rest⟩
      cases rest
      have fits := carried.fits n request there
      refine carried.withdraw there ?_ ?_ ?_ ?_ ?_
      · rfl
      · rfl
      · intro mem
        exact absurd mem (fits.not_collecting call)
      · apply fits.sound.finish
        · rw [waiting]
          simp
        · intro reply answered
          cases answered
      · exact meets
  | cancel n chance =>
      rcases Option.bind_eq_some_iff.mp stepEq with ⟨request, there, rest⟩
      rcases guard_bind_eq_some_iff.mp rest with ⟨live, rest⟩
      cases rest
      exact carried.cancel there live (meets request there)
  | take n =>
      rcases Option.bind_eq_some_iff.mp stepEq with ⟨request, there, rest⟩
      rcases guard_bind_eq_some_iff.mp rest with ⟨waiting, rest⟩
      split at rest
      · next outcome done =>
        cases rest
        exact carried.take there waiting done
      · cases rest
  | receive message =>
      simp only [Pending.step] at stepEq
      split at stepEq
      · cases stepEq
        exact carried.receive message
      · cases stepEq
  | close =>
      simp only [Pending.step] at stepEq
      split at stepEq
      · cases stepEq
        exact carried.close
      · cases stepEq
  | wake n waking =>
      rcases Option.bind_eq_some_iff.mp stepEq with ⟨request, there, rest⟩
      split at rest
      · next watching =>
        rcases Option.bind_eq_some_iff.mp rest with ⟨ending, ends, rest⟩
        cases rest
        exact carried.wake there watching ends
      · cases rest
  | clean n chance =>
      rcases Option.bind_eq_some_iff.mp stepEq with ⟨request, there, rest⟩
      split at rest
      · next ending ends =>
        cases rest
        exact carried.clean there ends meets
      · cases rest
  | remove n =>
      simp only [Pending.step] at stepEq
      split at stepEq
      · cases stepEq
        exact carried.remove
      · cases stepEq

theorem State.Ends.cons {label : Label} (ends : next.Ends n)
    (stepEq : Pending.step state label = some next) (goesOn : label.isCancel = false) :
    state.Ends n := by
  rcases ends with ⟨labels, target, ended, ran, goOn, there, isEnded⟩
  refine ⟨label :: labels, target, ended, ?_, ?_, there, isEnded⟩
  · exact run_cons_eq_some_iff.mpr ⟨next, stepEq, ran⟩
  · intro other mem
    rcases List.mem_cons.mp mem with this | later
    · rw [this]
      exact goesOn
    · exact goOn other later

theorem State.Ends.of_ended (there : state.requests[n]? = some request)
    (ended : request.stage = .ended) : state.Ends n :=
  ⟨[], state, request, rfl, fun _ mem => absurd mem List.not_mem_nil, there, ended⟩

/-- A withdrawal that finds the map unlocked. -/
def Chance.unlocked : Chance where
  lock := .free
  told := false

theorem getElem?_setRequest (there : state.requests[n]? = some request) :
    (state.setRequest n other).requests[n]? = some other := by
  have inside := (List.getElem?_eq_some_iff.mp there).1
  exact List.getElem?_set_self inside

theorem getElem?_release (there : state.requests[n]? = some request) (lock : Lock) :
    ((state.setRequest n other).release n lock).requests[n]? = some (other.released lock) := by
  have inside := (List.getElem?_eq_some_iff.mp there).1
  rw [release_requests lock there]
  exact List.getElem?_set_self inside

theorem getElem?_withdraw {method : String} (there : state.requests[n]? = some request) :
    ((state.setRequest n other).withdraw n method chance).requests[n]?
      = some (other.released chance.lock) := by
  have released : ((state.setRequest n other).release n chance.lock).requests[n]?
      = some (other.released chance.lock) := getElem?_release there chance.lock
  unfold State.withdraw
  dsimp only
  split <;> exact released

theorem stage_released (lock : Lock) : (request.released lock).stage = request.stage := by
  cases lock <;> rfl

theorem watchdog_released (lock : Lock) : (request.released lock).watchdog = request.watchdog := by
  cases lock <;> rfl

theorem State.Ends.of_sent {outcome : Outcome} (there : state.requests[n]? = some request)
    (waiting : request.stage = .waiting) (done : request.watchdog = .done (some outcome)) :
    state.Ends n := by
  have ended : (state.setRequest n (request.finish outcome)).Ends n :=
    .of_ended (getElem?_setRequest there) rfl
  have takes : Pending.step state (.take n)
      = some (state.setRequest n (request.finish outcome)) := by
    simp [Pending.step, there, waiting, done, guard]
  exact ended.cons takes rfl

theorem State.Ends.of_ending {ending : Ending} (there : state.requests[n]? = some request)
    (waiting : request.stage = .waiting) (ends : request.watchdog = .ending ending)
    (wanted : ending ≠ .nobodyWaiting) : state.Ends n := by
  have cleans : Pending.step state (.clean n .unlocked)
      = some (state.clean n request ending .unlocked) := by
    simp [Pending.step, there, ends]
  have same : (state.removeCollector n).requests[n]? = some request := there
  cases ending with
  | settled outcome =>
      have sent : (state.clean n request (.settled outcome) .unlocked).Ends n :=
        .of_sent (getElem?_setRequest same) waiting rfl
      exact sent.cons cleans rfl
  | timedOut =>
      have sent : (state.clean n request .timedOut .unlocked).Ends n :=
        .of_sent (getElem?_withdraw same) ((stage_released _).trans waiting) (watchdog_released _)
      exact sent.cons cleans rfl
  | nobodyWaiting => exact absurd rfl wanted

theorem State.Ends.of_watching (there : state.requests[n]? = some request)
    (waiting : request.stage = .waiting) (watching : request.watchdog = .watching) :
    state.Ends n := by
  have ending : (state.setRequest n { request with watchdog := .ending .timedOut }).Ends n :=
    .of_ending (getElem?_setRequest there) waiting rfl (by simp)
  have wakes : Pending.step state (.wake n .deadline)
      = some (state.setRequest n { request with watchdog := .ending .timedOut }) := by
    simp [Pending.step, there, watching, Request.ending?]
  exact ending.cons wakes rfl

theorem State.Ends.of_unsending (there : state.requests[n]? = some request)
    (unsending : request.stage = .unsending) : state.Ends n := by
  have unregisters : Pending.step state (.unregister n)
      = some ((state.setRequest n (request.finish .unsent)).release n .free) := by
    simp [Pending.step, there, unsending, guard, State.release]
  have ended : ((state.setRequest n (request.finish .unsent)).release n .free).Ends n :=
    .of_ended (getElem?_release there .free) rfl
  exact ended.cons unregisters rfl

/-- A registered request always can end. -/
theorem Fits.ends (fits : Fits state n request) (there : state.requests[n]? = some request)
    (registered : request.registered = true) : state.Ends n := by
  have sound := fits.sound
  cases stage : request.stage with
  | collecting => exact absurd stage (sound.late registered).1
  | registering => exact absurd stage (sound.late registered).2.1
  | refused => exact absurd stage (sound.late registered).2.2
  | ended => exact .of_ended there stage
  | sending =>
      have sends : Pending.step state (.send n false .unlocked)
          = some (state.send n request false .unlocked) := by
        simp [Pending.step, there, stage, guard]
      have ends : (state.send n request false .unlocked).Ends n := by
        simp only [State.send, Bool.false_eq_true, if_false]
        split
        · exact .of_unsending (getElem?_setRequest there) rfl
        · exact .of_ended (getElem?_release there .free) rfl
      exact ends.cons sends rfl
  | unsending => exact .of_unsending there stage
  | waiting =>
      cases streaming : request.streaming with
      | false =>
          have givesUp : Pending.step state (.giveUp n .unlocked)
              = some ((state.setRequest n (request.finish .timedOut)).withdraw n request.method
                .unlocked) := by
            simp [Pending.step, there, stage, streaming, guard]
          have ended : ((state.setRequest n (request.finish .timedOut)).withdraw n request.method
              .unlocked).Ends n := .of_ended (getElem?_withdraw there) rfl
          exact ended.cons givesUp rfl
      | true =>
          have live : request.stage ≠ .ended := by
            rw [stage]
            simp
          cases watchdog : request.watchdog with
          | absent => exact absurd watchdog (sound.streams streaming registered)
          | watching => exact .of_watching there stage watchdog
          | ending ending =>
              apply State.Ends.of_ending there stage watchdog
              intro nobody
              subst nobody
              exact live (sound.nobody (Or.inl watchdog))
          | done sent =>
              cases sent with
              | some outcome => exact .of_sent there stage watchdog
              | none => exact absurd (sound.nobody (Or.inr watchdog)) live

theorem Carried.conserved (carried : Carried state) : Conserved state where
  bounded := carried.bounded
  once := by
    intro request mem registered
    rcases List.getElem?_of_mem mem with ⟨n, there⟩
    have sound := (carried.fits n request there).sound
    split
    · next ended => exact sound.once registered ended
    · next live => rw [sound.live live, List.length_nil]
  own := by
    intro n request there reply answered
    exact (carried.fits n request there).sound.own reply (Or.inr (Or.inr (Or.inr answered)))
  ends := by
    intro n request there registered
    exact (carried.fits n request there).ends there registered
  released := by
    intro quiet
    constructor
    · apply List.eq_nil_iff_forall_not_mem.mpr
      intro n mem
      have there := List.getElem?_eq_getElem (carried.pending n mem)
      rcases (carried.fits n _ there).held mem with ⟨-, -, held | removal⟩
      · have here := List.getElem_mem (carried.pending n mem)
        unfold Request.Held at held
        split at held
        · rcases quiet.watchdogs _ here with absent | ⟨sent, done⟩
          · rw [absent] at held
            simp at held
          · rw [done] at held
            simp at held
        · rw [quiet.callers _ here] at held
          simp at held
      · rw [quiet.removals] at removal
        cases removal
    · apply List.eq_nil_iff_forall_not_mem.mpr
      intro n mem
      have there := List.getElem?_eq_getElem (carried.collectors n mem)
      have here := List.getElem_mem (carried.collectors n mem)
      rcases (carried.fits n _ there).collects mem with ⟨-, before | watched⟩
      · rw [quiet.callers _ here] at before
        simp at before
      · rcases quiet.watchdogs _ here with absent | ⟨sent, done⟩
        · rw [absent] at watched
          simp at watched
        · rw [done] at watched
          simp at watched

theorem carried_init (cancelsByNotification : Bool) : Carried (.init cancelsByNotification) where
  bounded := Nat.zero_le _
  fits _ _ there := by cases there
  pending _ mem := by cases mem
  collectors _ mem := by cases mem

/-- In every run in which no streaming call is cancelled between the registrations of its
collector and of its request, and every withdrawal gets at the map, the requests are
conserved. -/
theorem conserved_of_along {cancelsByNotification : Bool} {labels : List Label} {target : State}
    (along : Along step Released (.init cancelsByNotification) labels)
    (ran : run step (.init cancelsByNotification) labels = some target) : Conserved target := by
  apply Carried.conserved
  exact run_invariant_along Carried (fun _ _ _ carried meets stepEq => carried.step meets stepEq)
    (carried_init cancelsByNotification) along ran

instance (state : State) (n : Nat) (chance : Chance) : Decidable (Reaches state n chance) :=
  @forall_prop_decidable (n ∈ state.pending) (fun _ => chance.lock ≠ .busyOutside) inferInstance
    fun _ => inferInstance

instance (state : State) : ∀ label, Decidable (Released state label)
  | .cancel n chance => inferInstanceAs <| Decidable <| ∀ request ∈ state.requests[n]?,
      if request.streaming then request.stage ≠ .registering ∧ request.stage ≠ .refused
      else Reaches state n chance
  | .send n taken chance => inferInstanceAs <| Decidable <| ∀ request ∈ state.requests[n]?,
      taken = false → request.streaming = false → Reaches state n chance
  | .giveUp n chance | .clean n chance => inferInstanceAs <| Decidable <| Reaches state n chance
  | .start _ _ | .collect _ | .register _ | .uncollect _ | .unregister _ | .settle _ | .take _
  | .receive _ | .close | .wake _ _ | .remove _ => isTrue trivial

/-- The reply to a request that was given an id, which the server sends as a text. -/
def replyTo (id : String) : Message :=
  .response (some (.string id)) (some .null) none

/-- A call is answered, and a streaming call after it is cancelled. -/
theorem conserved_two_calls :
    ∃ target, run step (.init true)
        [.start "tools/list" false, .register 0, .send 0 true .unlocked,
          .start "tools/call" true, .collect 1, .register 1, .send 1 true .unlocked,
          .receive (replyTo "1"), .settle 0, .cancel 1 .unlocked, .wake 1 .closed,
          .clean 1 .unlocked] = some target ∧ Conserved target := by
  have runs : (run step (.init true)
      [.start "tools/list" false, .register 0, .send 0 true .unlocked,
        .start "tools/call" true, .collect 1, .register 1, .send 1 true .unlocked,
        .receive (replyTo "1"), .settle 0, .cancel 1 .unlocked, .wake 1 .closed,
        .clean 1 .unlocked]).isSome = true := by decide +kernel
  rcases Option.isSome_iff_exists.mp runs with ⟨target, ran⟩
  exact ⟨target, ran, conserved_of_along (by decide +kernel) ran⟩

/-- A streaming call that is cancelled while it waits for the map of pending requests
leaves its collector. -/
theorem collector_left_behind :
    ¬ ∀ cancelsByNotification labels target,
      run step (.init cancelsByNotification) labels = some target → Conserved target := by
  intro conserved
  let request : Request :=
    { method := "tools/call"
      streaming := true
      stage := .ended
      slot := .waiting
      watchdog := .absent
      registered := false
      outcomes := [] }
  let left : State := { State.init true with requests := [request], collectors := [0] }
  have ran : run step (.init true) [.start "tools/call" true, .collect 0, .cancel 0 .unlocked]
      = some left := rfl
  have quiet : left.Quiet := by
    constructor
    · intro other mem
      rw [List.mem_singleton.mp mem]
    · intro other mem
      rw [List.mem_singleton.mp mem]
      exact Or.inl rfl
    · rfl
  cases ((conserved true _ left ran).released quiet).2

end ClotoCore.Mcp.Pending
