import ClotoCore.Sequence.Numbered
import ClotoCore.Transition.Run

/-!
# Stopping a reply

Each turn is registered under the id of the message it answers, in a map that
holds the last registration of an id.  A stop sets a request on the registration
that the map holds and acts once the turn is armed.  A turn that arms looks up
the map again, so when its message was registered a second time it arms the other
turn and a stop requested of itself is never seen.
-/

namespace ClotoCore.Turns

open ClotoCore.Sequence ClotoCore.Transition

/-- How far the task of a turn has come.  It polls the stop before the work, and
is done with the work or stopped. -/
inductive Stage where
  | waiting
  | working
  | finished
  | stopped
  deriving DecidableEq

/-- An `Entry` with the task that holds its `StopRegistration`.  `hasArmed` says
that the task has called `arm`, `dropped` that the registration is gone. -/
structure Turn where
  messageId : String
  agentId : String
  signal : Bool
  requested : Bool
  armed : Bool
  stage : Stage
  hasArmed : Bool
  dropped : Bool

/-- A stop that was answered with `true`, and the turn it found. -/
structure Stop where
  agentId : String
  messageId : String
  found : Nat

/-- `ResponseStops`, with every turn that was ever registered: a place in `turns`
is the identity of an entry.  No step reads `stops`. -/
structure State where
  turns : List Turn
  inner : String → Option Nat
  stops : List Stop

/-- One step of a turn, or a stop. -/
inductive Label where
  | register (messageId agentId : String)
  | stop (agentId messageId : String)
  | pollStop (turn : Nat)
  | arm (turn : Nat)
  | pend (turn : Nat)
  | finish (turn : Nat)
  | drop (turn : Nat)

/-- The entry that `register` makes. -/
def Turn.registered (messageId agentId : String) : Turn where
  messageId := messageId
  agentId := agentId
  signal := false
  requested := false
  armed := false
  stage := .waiting
  hasArmed := false
  dropped := false

/-- `fire_if_ready` -/
def Turn.fireIfReady (turn : Turn) : Turn :=
  if turn.requested && turn.armed then { turn with signal := true } else turn

/-- The change that `arm` makes of an entry. -/
def Turn.arm (turn : Turn) : Turn :=
  Turn.fireIfReady { turn with armed := true }

/-- The change that `stop` makes of an entry. -/
def Turn.request (turn : Turn) : Turn :=
  Turn.fireIfReady { turn with requested := true }

/-- The poll of `stopped()` in `until_stopped`, which comes before the work. -/
def Turn.pollStop (turn : Turn) : Turn :=
  if turn.signal then { turn with signal := false, stage := .stopped }
  else { turn with stage := .working }

/-- The task has neither finished its work nor been stopped. -/
def Turn.running (turn : Turn) : Bool :=
  turn.stage = .waiting || turn.stage = .working

namespace State

/-- No turns yet. -/
def init : State where
  turns := []
  inner := fun _ => none
  stops := []

/-- Change one turn. -/
def update (state : State) (turn : Nat) (change : Turn → Turn) : State :=
  { state with turns := state.turns.modify turn change }

/-- `register` -/
def register (state : State) (messageId agentId : String) : State :=
  { state with
    turns := state.turns ++ [.registered messageId agentId]
    inner := fun other =>
      if other = messageId then some state.turns.length else state.inner other }

/-- `arm` -/
def arm (state : State) (messageId : String) : State :=
  match state.inner messageId with
  | none => state
  | some entry => state.update entry Turn.arm

/-- The turn that a stop finds. -/
def stoppable (state : State) (agentId messageId : String) : Option Nat :=
  (state.inner messageId).filter fun entry =>
    state.turns[entry]?.any fun turn => turn.agentId = agentId

/-- `stop` -/
def stop (state : State) (agentId messageId : String) : State :=
  match state.stoppable agentId messageId with
  | none => state
  | some entry =>
      { state.update entry Turn.request with
        stops := state.stops ++ [⟨agentId, messageId, entry⟩] }

/-- The `drop` of a `StopRegistration`. -/
def drop (state : State) (entry : Nat) (messageId : String) : State :=
  { state with
    inner := fun other =>
      if other = messageId ∧ state.inner messageId = some entry then none
      else state.inner other }

end State

/-- One step.  A turn works only between two polls of its stop. -/
def step : Action State Label
  | state, .register messageId agentId => some (state.register messageId agentId)
  | state, .stop agentId messageId => some (state.stop agentId messageId)
  | state, .pollStop n =>
      match state.turns[n]? with
      | none => none
      | some turn =>
          if turn.stage = .waiting then some (state.update n Turn.pollStop) else none
  | state, .arm n =>
      match state.turns[n]? with
      | none => none
      | some turn =>
          if turn.stage = .working then
            some <| (state.arm turn.messageId).update n fun turn => { turn with hasArmed := true }
          else none
  | state, .pend n =>
      match state.turns[n]? with
      | none => none
      | some turn =>
          if turn.stage = .working then
            some <| state.update n fun turn => { turn with stage := .waiting }
          else none
  | state, .finish n =>
      match state.turns[n]? with
      | none => none
      | some turn =>
          if turn.stage = .working then
            some <| state.update n fun turn => { turn with stage := .finished }
          else none
  | state, .drop n =>
      match state.turns[n]? with
      | none => none
      | some turn =>
          if turn.running = false ∧ turn.dropped = false then
            some <| (state.drop n turn.messageId).update n fun turn => { turn with dropped := true }
          else none

/-- What a step does. -/
inductive Stepped (state : State) : Label → State → Prop where
  | register (messageId agentId : String) :
      Stepped state (.register messageId agentId) (state.register messageId agentId)
  | stop (agentId messageId : String) :
      Stepped state (.stop agentId messageId) (state.stop agentId messageId)
  | pollStop {n : Nat} {turn : Turn} (there : state.turns[n]? = some turn)
      (waiting : turn.stage = .waiting) :
      Stepped state (.pollStop n) (state.update n Turn.pollStop)
  | arm {n : Nat} {turn : Turn} (there : state.turns[n]? = some turn)
      (working : turn.stage = .working) :
      Stepped state (.arm n) <|
        (state.arm turn.messageId).update n fun turn => { turn with hasArmed := true }
  | pend {n : Nat} {turn : Turn} (there : state.turns[n]? = some turn)
      (working : turn.stage = .working) :
      Stepped state (.pend n) (state.update n fun turn => { turn with stage := .waiting })
  | finish {n : Nat} {turn : Turn} (there : state.turns[n]? = some turn)
      (working : turn.stage = .working) :
      Stepped state (.finish n) (state.update n fun turn => { turn with stage := .finished })
  | drop {n : Nat} {turn : Turn} (there : state.turns[n]? = some turn)
      (done : turn.running = false) :
      Stepped state (.drop n) <|
        (state.drop n turn.messageId).update n fun turn => { turn with dropped := true }

theorem stepped {state next : State} {label : Label} (stepEq : step state label = some next) :
    Stepped state label next := by
  cases label with
  | register messageId agentId =>
      cases stepEq
      exact .register messageId agentId
  | stop agentId messageId =>
      cases stepEq
      exact .stop agentId messageId
  | pollStop n | arm n | pend n | finish n | drop n =>
      simp only [step] at stepEq
      split at stepEq
      · cases stepEq
      · next turn there =>
        split at stepEq
        · next enabled =>
          cases stepEq
          first
            | exact .pollStop there enabled
            | exact .arm there enabled
            | exact .pend there enabled
            | exact .finish there enabled
            | exact .drop there enabled.1
        · cases stepEq

/-! ## What a stop should do -/

/-- The turn was stopped, or is stopped at its next poll. -/
def Turn.Observes (turn : Turn) : Prop :=
  turn.stage = .stopped ∨ turn.running = true ∧ turn.signal = true

/-- Every stop is observed by the turn it found once that has armed. -/
def Observed (state : State) : Prop :=
  ∀ stop ∈ state.stops, ∀ turn, state.turns[stop.found]? = some turn →
    turn.hasArmed = true → turn.Observes

/-- A stop ends the turn it names: a turn is stopped only by a stop that found it
under its message and agent, a turn that was found is stopped once it has armed,
and the last registration of a message lasts until it is dropped. -/
structure StopsExactly (state : State) : Prop where
  named : ∀ n turn, state.turns[n]? = some turn → turn.Observes →
    ⟨turn.agentId, turn.messageId, n⟩ ∈ state.stops
  observed : Observed state
  newest : ∀ n turn, state.turns[n]? = some turn → turn.dropped = false →
    (∀ m later, n < m → state.turns[m]? = some later → later.messageId ≠ turn.messageId) →
      state.inner turn.messageId = some n

/-- A turn that arms while a stop is requested of it has its own entry in the map
or is armed already, no turn finishes its work after it has armed while a stop is
requested of it, and no stop finds a turn that has finished after arming. -/
def StopArrives (state : State) : Label → Prop
  | .arm n => ∀ turn ∈ state.turns[n]?, turn.requested = true →
      state.inner turn.messageId = some n ∨ turn.armed = true
  | .finish n => ∀ turn ∈ state.turns[n]?, ¬ (turn.hasArmed = true ∧ turn.requested = true)
  | .stop agentId messageId => ∀ n ∈ state.stoppable agentId messageId,
      ∀ turn ∈ state.turns[n]?, turn.hasArmed = true → turn.stage ≠ .finished
  | _ => True

instance (state : State) : ∀ label, Decidable (StopArrives state label)
  | .arm n => inferInstanceAs (Decidable (∀ turn ∈ state.turns[n]?, _))
  | .finish n => inferInstanceAs (Decidable (∀ turn ∈ state.turns[n]?, _))
  | .stop agentId messageId =>
      inferInstanceAs (Decidable (∀ n ∈ state.stoppable agentId messageId, _))
  | .register _ _ | .pollStop _ | .pend _ | .drop _ => .isTrue trivial

/-! ## What every step keeps -/

variable {state next : State} {label : Label} {n m : Nat} {turn : Turn}

/-- What a stop and an arming leave of an entry. -/
structure Turn.Sane (turn : Turn) : Prop where
  signalRequested : turn.signal = true → turn.requested = true
  signalArmed : turn.signal = true → turn.armed = true
  stoppedRequested : turn.stage = .stopped → turn.requested = true
  fired : turn.running = true → turn.requested = true → turn.armed = true → turn.signal = true

/-- The requests are those of the stops, and the map holds the last registrations,
which are armed once their turns have armed. -/
structure Sane (state : State) : Prop where
  turns : ∀ (n : Nat) (turn : Turn), state.turns[n]? = some turn → turn.Sane
  requests : ∀ n turn, state.turns[n]? = some turn → turn.requested = true →
    ⟨turn.agentId, turn.messageId, n⟩ ∈ state.stops
  found : ∀ stop ∈ state.stops, ∃ turn, state.turns[stop.found]? = some turn ∧
    turn.requested = true
  inner : ∀ messageId n, state.inner messageId = some n → ∃ turn, state.turns[n]? = some turn ∧
    turn.messageId = messageId ∧ (turn.hasArmed = true → turn.armed = true)
  newest : ∀ n turn, state.turns[n]? = some turn → turn.dropped = false →
    (∀ m later, n < m → state.turns[m]? = some later → later.messageId ≠ turn.messageId) →
      state.inner turn.messageId = some n

theorem getElem?_update {change : Turn → Turn} {after : Turn} :
    (state.update n change).turns[m]? = some after ↔
      ∃ before, state.turns[m]? = some before ∧
        (if n = m then change before else before) = after := by
  simp only [State.update, List.getElem?_modify, Option.map_eq_map, Option.map_eq_some_iff]

/-- A change that keeps the names and the registration of a turn. -/
structure Keeps (change : Turn → Turn) : Prop where
  messageId : ∀ turn, (change turn).messageId = turn.messageId
  agentId : ∀ turn, (change turn).agentId = turn.agentId
  dropped : ∀ turn, (change turn).dropped = turn.dropped

theorem Keeps.ite {change : Turn → Turn} (keeps : Keeps change) :
    Keeps fun turn => if n = m then change turn else turn := by
  by_cases same : n = m
  · simpa only [if_pos same] using keeps
  · simp only [if_neg same]
    constructor <;> intro <;> rfl

/-- A change of one turn that leaves it sane leaves the state sane, when the stops
grow by those that found the turn. -/
theorem Sane.updateWith {change : Turn → Turn} {stops : List Stop} (sane : Sane state)
    (keeps : Keeps change)
    (turnSane : ∀ turn, state.turns[n]? = some turn → turn.Sane → (change turn).Sane)
    (armed : ∀ turn, state.turns[n]? = some turn → state.inner turn.messageId = some n →
      (turn.hasArmed = true → turn.armed = true) → (change turn).hasArmed = true →
        (change turn).armed = true)
    (more : ∀ stop ∈ state.stops, stop ∈ stops)
    (requests : ∀ turn, state.turns[n]? = some turn → (change turn).requested = true →
      ⟨turn.agentId, turn.messageId, n⟩ ∈ stops)
    (found : ∀ stop ∈ stops, ∃ turn, state.turns[stop.found]? = some turn ∧
      (if n = stop.found then change turn else turn).requested = true) :
    Sane { state.update n change with stops := stops } := by
  constructor
  · intro m after there
    rcases getElem?_update.mp there with ⟨before, beforeEq, rfl⟩
    by_cases same : n = m
    · subst same
      rw [if_pos rfl]
      exact turnSane before beforeEq (sane.turns n before beforeEq)
    · rw [if_neg same]
      exact sane.turns m before beforeEq
  · intro m after there requested
    rcases getElem?_update.mp there with ⟨before, beforeEq, rfl⟩
    rw [keeps.ite.messageId, keeps.ite.agentId]
    by_cases same : n = m
    · subst same
      rw [if_pos rfl] at requested
      exact requests before beforeEq requested
    · rw [if_neg same] at requested
      exact more _ (sane.requests m before beforeEq requested)
  · intro stop mem
    rcases found stop mem with ⟨before, beforeEq, requested⟩
    exact ⟨_, getElem?_update.mpr ⟨before, beforeEq, rfl⟩, requested⟩
  · intro messageId m held
    rcases sane.inner messageId m held with ⟨before, beforeEq, rfl, armedBefore⟩
    refine ⟨_, getElem?_update.mpr ⟨before, beforeEq, rfl⟩, keeps.ite.messageId before, ?_⟩
    by_cases same : n = m
    · subst same
      rw [if_pos rfl]
      exact armed before beforeEq held armedBefore
    · rw [if_neg same]
      exact armedBefore
  · intro m after there kept latest
    rcases getElem?_update.mp there with ⟨before, beforeEq, rfl⟩
    rw [keeps.ite.messageId]
    rw [keeps.ite.dropped] at kept
    apply sane.newest m before beforeEq kept
    intro later other further otherEq sameMessage
    apply latest later _ further (getElem?_update.mpr ⟨other, otherEq, rfl⟩)
    rw [keeps.ite.messageId, keeps.ite.messageId, sameMessage]

/-- Such a change without a stop keeps the request too. -/
theorem Sane.update {change : Turn → Turn} (sane : Sane state) (keeps : Keeps change)
    (requested : ∀ turn, (change turn).requested = turn.requested)
    (turnSane : ∀ turn, state.turns[n]? = some turn → turn.Sane → (change turn).Sane)
    (armed : ∀ turn, state.turns[n]? = some turn → state.inner turn.messageId = some n →
      (turn.hasArmed = true → turn.armed = true) → (change turn).hasArmed = true →
        (change turn).armed = true) :
    Sane (state.update n change) := by
  apply sane.updateWith keeps turnSane armed (fun _ mem => mem)
  · intro turn there requestedAfter
    rw [requested] at requestedAfter
    exact sane.requests n turn there requestedAfter
  · intro stop mem
    rcases sane.found stop mem with ⟨turn, there, requestedBefore⟩
    refine ⟨turn, there, ?_⟩
    split
    · rw [requested]
      exact requestedBefore
    · exact requestedBefore

theorem Turn.fireIfReady_eq (turn : Turn) :
    turn.fireIfReady =
      { turn with signal := turn.signal || (turn.requested && turn.armed) } := by
  unfold Turn.fireIfReady
  by_cases ready : (turn.requested && turn.armed) = true
  · rw [if_pos ready, ready, Bool.or_true]
  · rw [if_neg ready, Bool.eq_false_iff.mpr ready, Bool.or_false]

/-- Firing makes a sane entry of one where a signal is requested and armed. -/
theorem Turn.sane_fireIfReady (signalRequested : turn.signal = true → turn.requested = true)
    (signalArmed : turn.signal = true → turn.armed = true)
    (stoppedRequested : turn.stage = .stopped → turn.requested = true) :
    turn.fireIfReady.Sane := by
  rw [Turn.fireIfReady_eq]
  constructor
  · intro signal
    rcases Bool.or_eq_true_iff.mp signal with already | ready
    · exact signalRequested already
    · exact (Bool.and_eq_true_iff.mp ready).1
  · intro signal
    rcases Bool.or_eq_true_iff.mp signal with already | ready
    · exact signalArmed already
    · exact (Bool.and_eq_true_iff.mp ready).2
  · exact stoppedRequested
  · intro _ requested armed
    exact Bool.or_eq_true_iff.mpr (Or.inr (Bool.and_eq_true_iff.mpr ⟨requested, armed⟩))

theorem Turn.arm_eq (turn : Turn) :
    turn.arm = { turn with armed := true, signal := turn.signal || turn.requested } := by
  rw [Turn.arm, Turn.fireIfReady_eq, Bool.and_true]

theorem Turn.request_eq (turn : Turn) :
    turn.request = { turn with requested := true, signal := turn.signal || turn.armed } := by
  rw [Turn.request, Turn.fireIfReady_eq, Bool.true_and]

theorem Turn.arm_keeps : Keeps Turn.arm := by
  constructor <;> intro turn <;> rw [Turn.arm_eq]

theorem Turn.Sane.arm (sane : turn.Sane) : turn.arm.Sane :=
  Turn.sane_fireIfReady sane.signalRequested (fun _ => rfl) sane.stoppedRequested

theorem Turn.Sane.request (sane : turn.Sane) : turn.request.Sane :=
  Turn.sane_fireIfReady (fun _ => rfl) sane.signalArmed (fun _ => rfl)

theorem Turn.request_keeps : Keeps Turn.request := by
  constructor <;> intro turn <;> rw [Turn.request_eq]

theorem Turn.pollStop_keeps : Keeps Turn.pollStop := by
  constructor <;> intro turn <;> unfold Turn.pollStop <;> split <;> rfl

theorem Turn.Sane.pollStop (sane : turn.Sane) (waiting : turn.stage = .waiting) :
    turn.pollStop.Sane := by
  have running : turn.running = true := by simp [Turn.running, waiting]
  unfold Turn.pollStop
  by_cases signal : turn.signal = true
  · rw [if_pos signal]
    refine ⟨?_, ?_, fun _ => sane.signalRequested signal, ?_⟩ <;>
      · intro impossible
        cases impossible
  · rw [if_neg signal]
    refine ⟨sane.signalRequested, sane.signalArmed, ?_, fun _ => sane.fired running⟩
    intro impossible
    cases impossible

/-- A change of the stage alone, from one in which the task runs to one where it is
not stopped. -/
theorem Turn.Sane.restage (sane : turn.Sane) (working : turn.stage = .working) {stage : Stage}
    (notStopped : stage ≠ .stopped) : ({ turn with stage := stage } : Turn).Sane where
  signalRequested := sane.signalRequested
  signalArmed := sane.signalArmed
  stoppedRequested := fun stopped => absurd stopped notStopped
  fired := fun _ => sane.fired (by simp [Turn.running, working])

theorem restage_keeps (stage : Stage) : Keeps fun turn => { turn with stage := stage } where
  messageId _ := rfl
  agentId _ := rfl
  dropped _ := rfl

theorem Sane.arm (sane : Sane state) (messageId : String) : Sane (state.arm messageId) := by
  unfold State.arm
  split
  · exact sane
  · apply sane.update Turn.arm_keeps
    · intro turn
      rw [Turn.arm_eq]
    · intro turn _ turnSane
      exact turnSane.arm
    · intro turn _ _ _ _
      rw [Turn.arm_eq]

/-- The entry that the map holds is armed, and no other. -/
theorem getElem?_arm {messageId : String} {after : Turn} :
    (state.arm messageId).turns[m]? = some after ↔
      ∃ before, state.turns[m]? = some before ∧
        (if state.inner messageId = some m then before.arm else before) = after := by
  unfold State.arm
  split
  · next absent => simp [absent]
  · next entry present => simp only [getElem?_update, present, Option.some.injEq]

theorem inner_arm {messageId : String} : (state.arm messageId).inner = state.inner := by
  unfold State.arm
  split <;> rfl

theorem hasArmed_keeps : Keeps fun turn => { turn with hasArmed := true } where
  messageId _ := rfl
  agentId _ := rfl
  dropped _ := rfl

theorem Sane.register (sane : Sane state) (messageId agentId : String) :
    Sane (state.register messageId agentId) := by
  constructor
  · intro m turn there
    rcases getElem?_concat_cases there with before | ⟨-, rfl⟩
    · exact sane.turns m turn before
    · constructor <;> intros <;> contradiction
  · intro m turn there requested
    rcases getElem?_concat_cases there with before | ⟨-, rfl⟩
    · exact sane.requests m turn before requested
    · cases requested
  · intro stop mem
    rcases sane.found stop mem with ⟨turn, there, requested⟩
    exact ⟨turn, getElem?_concat_of_some there, requested⟩
  · intro other m held
    by_cases same : other = messageId
    · have place : m = state.turns.length := by simpa [State.register, same, eq_comm] using held
      subst place
      refine ⟨.registered messageId agentId, List.getElem?_concat_length, same.symm, ?_⟩
      intro impossible
      cases impossible
    · have heldBefore : state.inner other = some m := by
        simpa [State.register, same] using held
      rcases sane.inner other m heldBefore with ⟨turn, there, named⟩
      exact ⟨turn, getElem?_concat_of_some there, named⟩
  · intro m turn there kept latest
    rcases getElem?_concat_cases there with before | ⟨rfl, rfl⟩
    · have within : m < state.turns.length := (List.getElem?_eq_some_iff.mp before).1
      have other : turn.messageId ≠ messageId := by
        intro same
        exact latest state.turns.length _ within List.getElem?_concat_length same.symm
      have held := sane.newest m turn before kept fun later turn further there =>
        latest later turn further (getElem?_concat_of_some there)
      simpa [State.register, other] using held
    · simp [State.register, Turn.registered]

/-- A stop finds a turn under its agent and message. -/
theorem stoppable_eq_some {agentId messageId : String} (sane : Sane state)
    (found : state.stoppable agentId messageId = some n) :
    ∃ turn, state.turns[n]? = some turn ∧ turn.agentId = agentId ∧
      turn.messageId = messageId ∧ (turn.hasArmed = true → turn.armed = true) := by
  rcases Option.filter_eq_some_iff.mp found with ⟨held, agent⟩
  rcases sane.inner messageId n held with ⟨turn, there, named, armed⟩
  rw [there, Option.any_some, decide_eq_true_eq] at agent
  exact ⟨turn, there, agent, named, armed⟩

theorem Sane.stop (sane : Sane state) (agentId messageId : String) :
    Sane (state.stop agentId messageId) := by
  unfold State.stop
  split
  · exact sane
  · next entry found =>
    rcases stoppable_eq_some sane found with ⟨target, targetEq, rfl, rfl, targetArmed⟩
    apply sane.updateWith Turn.request_keeps
    · intro turn _ turnSane
      exact turnSane.request
    · intro turn _ _ armed
      rw [Turn.request_eq]
      exact armed
    · intro stop mem
      exact List.mem_append_left _ mem
    · intro turn there _
      rw [targetEq] at there
      cases there
      exact List.mem_append_right _ (List.mem_singleton.mpr rfl)
    · intro stop mem
      rcases List.mem_append.mp mem with earlier | this
      · rcases sane.found stop earlier with ⟨turn, there, requested⟩
        refine ⟨turn, there, ?_⟩
        split
        · rw [Turn.request_eq]
        · exact requested
      · cases List.mem_singleton.mp this
        refine ⟨target, targetEq, ?_⟩
        rw [if_pos rfl, Turn.request_eq]

theorem Sane.drop (sane : Sane state) (messageId : String) :
    Sane ((state.drop n messageId).update n fun turn => { turn with dropped := true }) := by
  constructor
  · intro m after there
    rcases getElem?_update.mp there with ⟨before, beforeEq, rfl⟩
    have turnSane := sane.turns m before beforeEq
    split
    · exact ⟨turnSane.signalRequested, turnSane.signalArmed, turnSane.stoppedRequested,
        turnSane.fired⟩
    · exact turnSane
  · intro m after there requested
    rcases getElem?_update.mp there with ⟨before, beforeEq, rfl⟩
    by_cases same : n = m
    · rw [if_pos same] at requested ⊢
      exact sane.requests m before beforeEq requested
    · rw [if_neg same] at requested ⊢
      exact sane.requests m before beforeEq requested
  · intro stop mem
    rcases sane.found stop mem with ⟨before, beforeEq, requested⟩
    refine ⟨_, getElem?_update.mpr ⟨before, beforeEq, rfl⟩, ?_⟩
    split <;> exact requested
  · intro other m held
    have heldBefore : state.inner other = some m := by
      simp only [State.update, State.drop] at held
      split at held
      · cases held
      · exact held
    rcases sane.inner other m heldBefore with ⟨before, beforeEq, named⟩
    refine ⟨_, getElem?_update.mpr ⟨before, beforeEq, rfl⟩, ?_⟩
    split <;> exact named
  · intro m after there kept latest
    rcases getElem?_update.mp there with ⟨before, beforeEq, rfl⟩
    by_cases same : n = m
    · rw [if_pos same] at kept
      cases kept
    · rw [if_neg same] at kept latest ⊢
      have held := sane.newest m before beforeEq kept <| by
        intro later other further otherEq sameMessage
        apply latest later _ further (getElem?_update.mpr ⟨other, otherEq, rfl⟩)
        split <;> exact sameMessage
      simp only [State.update, State.drop]
      rw [if_neg]
      · exact held
      · rintro ⟨rfl, holder⟩
        rw [held] at holder
        exact same (Option.some.inj holder).symm

theorem sane_init : Sane .init := by
  constructor
  · intro n turn there
    cases there
  · intro n turn there
    cases there
  · intro stop mem
    cases mem
  · intro messageId n held
    cases held
  · intro n turn there
    cases there

theorem Sane.step (sane : Sane state) (stepEq : step state label = some next) : Sane next := by
  cases stepped stepEq with
  | register messageId agentId => exact sane.register messageId agentId
  | stop agentId messageId => exact sane.stop agentId messageId
  | @pollStop n turn there waiting =>
      apply sane.update Turn.pollStop_keeps
      · intro turn
        unfold Turn.pollStop
        split <;> rfl
      · intro other otherEq otherSane
        rw [there] at otherEq
        cases otherEq
        exact otherSane.pollStop waiting
      · intro turn _ _ armed
        unfold Turn.pollStop
        split <;> exact armed
  | @arm n turn there working =>
      apply (sane.arm turn.messageId).update hasArmed_keeps
      · intro turn
        rfl
      · intro turn _ turnSane
        exact ⟨turnSane.signalRequested, turnSane.signalArmed, turnSane.stoppedRequested,
          turnSane.fired⟩
      · intro other otherEq held _ _
        rcases getElem?_arm.mp otherEq with ⟨before, beforeEq, rfl⟩
        rw [there] at beforeEq
        cases beforeEq
        rw [inner_arm] at held
        have own : state.inner turn.messageId = some n := by
          split at held
          · next own => exact own
          · exact held
        rw [if_pos own, Turn.arm_eq]
  | @pend n turn there working | @finish n turn there working =>
      apply sane.update (restage_keeps _)
      · intro turn
        rfl
      · intro other otherEq otherSane
        rw [there] at otherEq
        cases otherEq
        apply otherSane.restage working
        intro impossible
        cases impossible
      · intro turn _ _ armed
        exact armed
  | drop there done => exact sane.drop _

/-! ## Which steps keep the stops observed -/

/-- A change under which a turn still observes what it observed. -/
theorem Observed.update {change : Turn → Turn} (observed : Observed state)
    (still : ∀ turn, state.turns[n]? = some turn → turn.requested = true →
      (turn.hasArmed = true → turn.Observes) → (change turn).hasArmed = true →
        (change turn).Observes)
    (sane : Sane state) : Observed (state.update n change) := by
  intro stop mem after there armed
  rcases getElem?_update.mp there with ⟨before, beforeEq, rfl⟩
  by_cases same : n = stop.found
  · rw [if_pos same] at armed ⊢
    rcases sane.found stop mem with ⟨turn, turnEq, requested⟩
    rw [beforeEq] at turnEq
    cases turnEq
    rw [← same] at beforeEq
    apply still before beforeEq requested _ armed
    intro armedBefore
    rw [same] at beforeEq
    exact observed stop mem before beforeEq armedBefore
  · rw [if_neg same] at armed ⊢
    exact observed stop mem before beforeEq armed

theorem Turn.Observes.arm (observes : turn.Observes) : turn.arm.Observes := by
  rw [Turn.arm_eq]
  rcases observes with stopped | ⟨running, signal⟩
  · exact Or.inl stopped
  · exact Or.inr ⟨running, by simp [signal]⟩

theorem Observed.arm (observed : Observed state) (sane : Sane state) (messageId : String) :
    Observed (state.arm messageId) := by
  unfold State.arm
  split
  · exact observed
  · apply observed.update _ sane
    intro turn _ _ observes armed
    apply Turn.Observes.arm
    apply observes
    rwa [Turn.arm_eq] at armed

theorem Turn.running_of_working (working : turn.stage = .working) : turn.running = true := by
  simp [Turn.running, working]

theorem Turn.Observes.signal_of_working (observes : turn.Observes)
    (working : turn.stage = .working) : turn.signal = true := by
  rcases observes with stopped | ⟨-, signal⟩
  · rw [working] at stopped
    cases stopped
  · exact signal

/-- Arming keeps the stops observed exactly if it arms a turn of which a stop is
requested. -/
theorem Observed.arm_iff (observed : Observed state) (sane : Sane state)
    (there : state.turns[n]? = some turn) (working : turn.stage = .working) :
    Observed ((state.arm turn.messageId).update n fun turn => { turn with hasArmed := true }) ↔
      StopArrives state (.arm n) := by
  have armedTurn : (state.arm turn.messageId).turns[n]? =
      some (if state.inner turn.messageId = some n then turn.arm else turn) :=
    getElem?_arm.mpr ⟨turn, there, rfl⟩
  constructor
  · intro observedAfter other otherEq requested
    rw [there] at otherEq
    cases otherEq
    by_cases own : state.inner turn.messageId = some n
    · exact Or.inl own
    · right
      rw [if_neg own] at armedTurn
      have stops : (state.arm turn.messageId).stops = state.stops := by
        unfold State.arm
        split <;> rfl
      have mem : (⟨turn.agentId, turn.messageId, n⟩ : Stop) ∈ (state.arm turn.messageId).stops := by
        rw [stops]
        exact sane.requests n turn there requested
      have observes := observedAfter _ mem { turn with hasArmed := true }
        (getElem?_update.mpr ⟨turn, armedTurn, if_pos rfl⟩) rfl
      exact (sane.turns n turn there).signalArmed (observes.signal_of_working working)
  · intro arrives
    apply (observed.arm sane turn.messageId).update _ (sane.arm turn.messageId)
    intro other otherEq requested _ _
    rw [armedTurn] at otherEq
    cases otherEq
    have running := Turn.running_of_working working
    right
    by_cases own : state.inner turn.messageId = some n
    · rw [if_pos own, Turn.arm_eq] at requested ⊢
      exact ⟨running, Bool.or_eq_true_iff.mpr (Or.inr requested)⟩
    · rw [if_neg own] at requested ⊢
      rcases arrives turn there requested with held | armed
      · exact absurd held own
      · exact ⟨running, (sane.turns n turn there).fired running requested armed⟩

theorem Observed.finish_iff (observed : Observed state) (sane : Sane state) :
    Observed (state.update n fun turn => { turn with stage := .finished }) ↔
      StopArrives state (.finish n) := by
  constructor
  · rintro observedAfter other otherEq ⟨armed, requested⟩
    have observes := observedAfter _ (sane.requests n other otherEq requested) _
      (getElem?_update.mpr ⟨other, otherEq, if_pos rfl⟩) armed
    rcases observes with stopped | ⟨running, -⟩
    · cases stopped
    · cases running
  · intro arrives
    apply observed.update _ sane
    intro other otherEq requested _ armed
    exact absurd ⟨armed, requested⟩ (arrives other otherEq)

theorem Observed.stop_iff (observed : Observed state) (sane : Sane state)
    (agentId messageId : String) :
    Observed (state.stop agentId messageId) ↔ StopArrives state (.stop agentId messageId) := by
  unfold State.stop
  split
  · next absent =>
    constructor
    · intro _ n found
      rw [absent] at found
      cases found
    · intro
      exact observed
  · next entry found =>
    rcases stoppable_eq_some sane found with ⟨target, targetEq, -, -, targetArmed⟩
    have requestEq := Turn.request_eq target
    constructor
    · intro observedAfter n foundAgain turn there armed finished
      rw [found] at foundAgain
      cases foundAgain
      rw [targetEq] at there
      cases there
      have observes := observedAfter ⟨agentId, messageId, entry⟩
        (List.mem_append_right _ (List.mem_singleton.mpr rfl)) target.request
        (getElem?_update.mpr ⟨target, targetEq, if_pos rfl⟩)
      rw [requestEq] at observes
      rcases observes armed with stopped | ⟨running, -⟩
      · rw [finished] at stopped
        cases stopped
      · simp [Turn.running, finished] at running
    · intro arrives stop mem after there armed
      rcases getElem?_update.mp there with ⟨before, beforeEq, rfl⟩
      by_cases same : entry = stop.found
      · rw [if_pos same] at armed ⊢
        rw [← same, targetEq] at beforeEq
        cases beforeEq
        rw [requestEq] at armed ⊢
        have unfinished := arrives entry found target targetEq armed
        have signal : (target.signal || target.armed) = true :=
          Bool.or_eq_true_iff.mpr (Or.inr (targetArmed armed))
        cases stage : target.stage with
        | finished => exact absurd stage unfinished
        | stopped => exact Or.inl rfl
        | waiting | working => exact Or.inr ⟨rfl, signal⟩
      · rw [if_neg same] at armed ⊢
        rcases List.mem_append.mp mem with earlier | this
        · exact observed stop earlier before beforeEq armed
        · cases List.mem_singleton.mp this
          exact absurd rfl same

theorem Observed.step_iff (observed : Observed state) (sane : Sane state)
    (stepEq : step state label = some next) : Observed next ↔ StopArrives state label := by
  cases stepped stepEq with
  | stop agentId messageId => exact observed.stop_iff sane agentId messageId
  | arm there working => exact observed.arm_iff sane there working
  | finish there working => exact observed.finish_iff sane
  | register messageId agentId =>
      simp only [StopArrives, iff_true]
      intro stop mem turn there armed
      rcases sane.found stop mem with ⟨before, beforeEq, -⟩
      have within : stop.found < state.turns.length := (List.getElem?_eq_some_iff.mp beforeEq).1
      have same := (List.getElem?_append_left within).symm.trans there
      exact observed stop mem turn same armed
  | @pollStop n turn there waiting =>
      simp only [StopArrives, iff_true]
      apply observed.update _ sane
      intro other otherEq _ observes armed
      unfold Turn.pollStop at armed ⊢
      by_cases signal : other.signal = true
      · rw [if_pos signal]
        exact Or.inl rfl
      · rw [if_neg signal] at armed
        rw [there] at otherEq
        cases otherEq
        rcases observes armed with stopped | ⟨-, signalled⟩
        · rw [waiting] at stopped
          cases stopped
        · exact absurd signalled signal
  | @pend n turn there working =>
      simp only [StopArrives, iff_true]
      apply observed.update _ sane
      intro other otherEq _ observes armed
      rw [there] at otherEq
      cases otherEq
      exact Or.inr ⟨rfl, (observes armed).signal_of_working working⟩
  | @drop n turn there done =>
      simp only [StopArrives, iff_true]
      intro stop mem after afterEq armed
      rcases getElem?_update.mp afterEq with ⟨before, beforeEq, rfl⟩
      split at armed
      · next same =>
        rw [if_pos same]
        exact observed stop mem before beforeEq armed
      · next other =>
        rw [if_neg other]
        exact observed stop mem before beforeEq armed

/-! ## Throughout a run -/

theorem stopsExactly_of (sane : Sane state) (observed : Observed state) : StopsExactly state where
  observed := observed
  newest := sane.newest
  named := by
    intro n turn there observes
    apply sane.requests n turn there
    rcases observes with stopped | ⟨-, signal⟩
    · exact (sane.turns n turn there).stoppedRequested stopped
    · exact (sane.turns n turn there).signalRequested signal

/-- Throughout a run every stop ends exactly the turn it names if and only if every
turn arms its own entry and no turn is past stopping when it is. -/
theorem stopsExactly_throughout_iff {labels : List Label} {target : State}
    (ran : run step .init labels = some target) :
    (∀ count middle, run step .init (labels.take count) = some middle → StopsExactly middle) ↔
      Along step StopArrives .init labels := by
  have exactly : ∀ ⦃state : State⦄, Sane state ∧ Observed state → StopsExactly state := by
    rintro state ⟨sane, observed⟩
    exact stopsExactly_of sane observed
  apply throughout_iff_along_of exactly _ _ _ ran
  · rintro state label next ⟨sane, observed⟩ arrives stepEq
    exact ⟨sane.step stepEq, (observed.step_iff sane stepEq).mpr arrives⟩
  · rintro state label next ⟨sane, observed⟩ stepEq after
    exact (observed.step_iff sane stepEq).mp after.observed
  · refine ⟨sane_init, ?_⟩
    intro stop mem
    cases mem

/-- A stop comes while the message is queued, and waits for the arming. -/
def queuedStop : List Label :=
  [.register "m1" "agent.a", .stop "agent.a" "m1", .pollStop 0, .arm 0, .pend 0, .pollStop 0,
    .drop 0]

theorem stopsExactly_queued :
    ∃ target, run step .init queuedStop = some target ∧ StopsExactly target := by
  have runs : (run step .init queuedStop).isSome = true := by
    decide
  rcases Option.isSome_iff_exists.mp runs with ⟨target, ran⟩
  exact ⟨target, ran, (stopsExactly_throughout_iff ran).mpr (by decide) 7 target ran⟩

/-- A message is registered again while a stop of its first turn waits: the first
turn arms the second one's entry and answers unstopped. -/
theorem stop_lost_by_second_registration :
    ¬ ∀ (labels : List Label) (target : State),
      run step .init labels = some target → StopsExactly target := by
  intro always
  have stops := always [.register "m1" "agent.a", .stop "agent.a" "m1",
    .register "m1" "agent.a", .pollStop 0, .arm 0] _ rfl
  rcases stops.observed ⟨"agent.a", "m1", 0⟩ (List.mem_singleton.mpr rfl) _ rfl rfl with
    stopped | ⟨-, signal⟩
  · cases stopped
  · cases signal

end ClotoCore.Turns
