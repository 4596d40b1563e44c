import ClotoCore.Approval.Gate
import ClotoCore.Transition.Run

/-!
# Approval items

A gate that asks waits at a channel whose other end is in the map of pending approvals,
and has an item in the store that says so.  A decision reaches the gate through the map,
and the gate settles the item.  The item can also be answered where every other item is,
and the gate can be dropped, alone with its turn or with the kernel.
-/

namespace ClotoCore.Approval.Items

open ClotoCore.Encoding ClotoCore.Transition

/-! ## Requests -/

/-- How far a gate is: it has made its channel, it has tried to record its item, it waits at
the channel, it acts on a decision that it has received, or it has returned or was
dropped. -/
inductive Gate where
  | opening
  | recorded
  | waiting
  | acting (decision : CommandApprovalDecision)
  | gone

/-- An item of the store, which is resolved once it has a decision. -/
structure NotificationItem where
  read : Bool
  decision : Option String
  blocking : Bool

/-- One request for approval: its gate, whether the other end of its channel is in the map,
what was sent into the channel, whether it was announced, its item, and the decisions that
were acted on. -/
structure Request where
  gate : Gate
  pending : Bool
  channel : Option CommandApprovalDecision
  announced : Bool
  item : Option NotificationItem
  acted : List CommandApprovalDecision

/-- The requests in the order in which they are made; each has an id of its own. -/
abbrev State := List Request

/-- What the gate writes for a decision. -/
def decisionText : CommandApprovalDecision → String
  | .approve => "approved"
  | .trust => "trusted"
  | .deny => "denied by user"

/-- `resolve_notification`: an item that is resolved stays as it is. -/
def NotificationItem.resolve (item : NotificationItem) (decision : String) : NotificationItem :=
  if item.decision.isNone then { item with decision := some decision, blocking := false } else item

/-- What happens to one request: it is recorded, if the write succeeds; it is announced; one
of the decision routes is called; the gate receives the decision; it settles the item, if the
write succeeds; the item is answered or read; the turn is stopped. -/
inductive Event where
  | record (written : Bool)
  | announce
  | decide (decision : CommandApprovalDecision)
  | receive
  | settle (written : Bool)
  | answer (decision : String) (written : Bool)
  | read
  | stop

namespace Request

/-- A gate that has made its channel. -/
def opened : Request where
  gate := .opening
  pending := true
  channel := none
  announced := false
  item := none
  acted := []

/-- An agent is held in the gate. -/
def waits (request : Request) : Bool :=
  match request.gate with
  | .waiting | .acting _ => true
  | .opening | .recorded | .gone => false

/-- The item is there, unresolved and blocking. -/
def isOpen (request : Request) : Bool :=
  request.item.any fun item => item.decision.isNone && item.blocking

/-- The gate is dropped, and with it its end of the channel. -/
def drop (request : Request) : Request :=
  { request with gate := .gone, channel := none }

/-- `run_approval_gate`, from the channel to the item: a failure to record it is only
logged. -/
def record (request : Request) (written : Bool) : Option Request :=
  match request.gate with
  | .opening => some
      { request with
        gate := .recorded
        item := if written then some ⟨false, none, true⟩ else none }
  | _ => none

/-- `run_approval_gate`, from the item to the wait. -/
def announce (request : Request) : Option Request :=
  match request.gate with
  | .recorded => some { request with gate := .waiting, announced := true }
  | _ => none

/-- `approve_command`, `trust_command` and `deny_command`: where the request is not in the
map there is nothing to decide. -/
def decide (request : Request) (decision : CommandApprovalDecision) : Request :=
  if request.pending then
    match request.gate with
    | .opening | .recorded | .waiting => { request with pending := false, channel := some decision }
    | .acting _ | .gone => { request with pending := false }
  else request

/-- The gate takes the decision from the channel. -/
def receive (request : Request) : Option Request :=
  match request.gate, request.channel with
  | .waiting, some decision => some
      { request with
        gate := .acting decision
        pending := false
        channel := none
        acted := request.acted ++ [decision] }
  | _, _ => none

/-- `settle_approval`, at the end of `process_approval_decision`: a failure to settle the
item is only logged. -/
def settle (request : Request) (written : Bool) : Option Request :=
  match request.gate with
  | .acting decision => some
      { request with
        gate := .gone
        item :=
          if written then request.item.map fun item => item.resolve (decisionText decision)
          else request.item }
  | _ => none

/-- `answer_notification` -/
def answer (request : Request) (decision : String) (written : Bool) : Request :=
  if trim decision = "" then request
  else if written then
    { request with item := request.item.map fun item => item.resolve (trim decision) }
  else request

/-- `mark_notification_read` -/
def markRead (request : Request) : Request :=
  { request with item := request.item.map fun item => { item with read := true } }

/-- What an event does to a request. -/
def step : Action Request Event
  | request, .record written => request.record written
  | request, .announce => request.announce
  | request, .decide decision => some (request.decide decision)
  | request, .receive => request.receive
  | request, .settle written => request.settle written
  | request, .answer decision written => some (request.answer decision written)
  | request, .read => some request.markRead
  | request, .stop => some request.drop

end Request

/-- A gate asks; something happens to a request; the kernel is started again. -/
inductive Label where
  | ask
  | on (request : Nat) (event : Event)
  | restart

/-- The gates and the map are gone with the kernel, the store is not. -/
def Request.restart (request : Request) : Request :=
  { request.drop with pending := false }

/-- A request opens, one of them takes a step, or the kernel starts anew. -/
def step : Action State Label
  | state, .ask => some (state ++ [.opened])
  | state, .on n event =>
      (state[n]?).bind fun request => (request.step event).map (state.set n)
  | state, .restart => some (state.map Request.restart)

/-- `notification_summary`, of the approvals. -/
def notificationSummary (state : State) : Nat × Nat :=
  (state.countP fun request => request.item.any fun item => item.decision.isNone,
    state.countP fun request => request.item.any fun item =>
      item.decision.isNone && item.blocking)

/-! ## An item that tells the truth -/

/-- Once a request is announced its item is open exactly while an agent is held in the gate;
a decision is acted on at most once; and the decision of the item is the one acted on. -/
structure Request.Right (request : Request) : Prop where
  held : request.announced = true → (request.isOpen = true ↔ request.waits = true)
  once : request.acted.length ≤ 1
  stored : ∀ item text, request.item = some item → item.decision = some text →
    request.acted.map decisionText = [text]

/-- The items of all requests tell the truth. -/
def AllRight (state : State) : Prop :=
  ∀ request ∈ state, request.Right

/-- What a request that is right has besides: how far its gate is tells whether it was
announced and what was acted on, and an item blocks until it is resolved. -/
structure Request.Sound (request : Request) : Prop where
  right : request.Right
  opening : request.gate = .opening → request.announced = false
  recorded : request.gate = .recorded → request.announced = false
  waiting : request.gate = .waiting → request.announced = true ∧ request.acted = []
  acting : ∀ decision, request.gate = .acting decision →
    request.announced = true ∧ request.acted = [decision]
  silent : request.announced = false → request.acted = []
  blocking : ∀ item, request.item = some item → item.decision = none → item.blocking = true

/-- What keeps an item true: it is open when it is announced, it is settled, it is not
answered elsewhere while it is open, and the gate is not dropped while an agent is held in
it. -/
def Request.Kept (request : Request) : Event → Prop
  | .announce => request.isOpen = true
  | .settle written => written = true
  | .answer decision written => request.isOpen = true → trim decision = "" ∨ written = false
  | .stop => request.waits = false
  | .record _ | .decide _ | .receive | .read => True

/-- The same of a step: a restart drops all gates. -/
def Kept (state : State) : Label → Prop
  | .ask => True
  | .on n event => ∀ request, state[n]? = some request → request.Kept event
  | .restart => ∀ request ∈ state, request.waits = false

variable {request next : Request} {state : State} {event : Event}

theorem Request.sound_opened : Request.opened.Sound := by
  constructor
  · constructor
    · intro announced
      cases announced
    · exact Nat.zero_le 1
    · intro item text here
      cases here
  · intro
    rfl
  · intro recorded
    cases recorded
  · intro waiting
    cases waiting
  · intro decision acting
    cases acting
  · intro
    rfl
  · intro item here
    cases here

/-- An item of an announced request is unresolved exactly while the agent is held. -/
theorem Request.Sound.unresolved (sound : request.Sound) (announced : request.announced = true)
    {item : NotificationItem} (here : request.item = some item) :
    item.decision = none ↔ request.waits = true := by
  rw [← sound.right.held announced, Request.isOpen, here]
  constructor
  · intro undecided
    simp [undecided, sound.blocking item here undecided]
  · intro isOpen
    have both : item.decision = none ∧ item.blocking = true := by simpa using isOpen
    exact both.1

/-- An item that is resolved anew has the decision. -/
theorem resolve_of_undecided {item : NotificationItem} {decision : String}
    (undecided : item.decision = none) :
    item.resolve decision = { item with decision := some decision, blocking := false } := by
  simp [NotificationItem.resolve, undecided]

theorem resolve_of_decided {item : NotificationItem} {decision : String}
    (decided : item.decision ≠ none) : item.resolve decision = item := by
  rcases Option.ne_none_iff_exists'.mp decided with ⟨text, here⟩
  simp [NotificationItem.resolve, here]

theorem Request.Sound.decide (sound : request.Sound) (decision : CommandApprovalDecision) :
    (request.decide decision).Sound := by
  rcases request with ⟨gate, pending, channel, announced, item, acted⟩
  rcases sound with ⟨⟨held, once, stored⟩, opening, recorded, waiting, acting, silent, blocking⟩
  cases pending with
  | false => exact ⟨⟨held, once, stored⟩, opening, recorded, waiting, acting, silent, blocking⟩
  | true =>
      cases gate <;>
        exact ⟨⟨held, once, stored⟩, opening, recorded, waiting, acting, silent, blocking⟩

/-- An item that is recorded is open and not announced yet. -/
theorem Request.Sound.record (sound : request.Sound) {written : Bool}
    (stepEq : request.record written = some next) : next.Sound := by
  rcases request with ⟨gate, pending, channel, announced, item, acted⟩
  cases gate with
  | opening =>
      cases stepEq
      have unannounced : announced = false := sound.opening rfl
      subst unannounced
      have undecided : ∀ held, (if written then some ⟨false, none, true⟩ else none) = some held →
          held = (⟨false, none, true⟩ : NotificationItem) := by
        intro held here
        split at here
        · exact (Option.some.inj here).symm
        · cases here
      constructor
      · constructor
        · intro known
          cases known
        · exact sound.right.once
        · intro held text here decided
          rw [undecided held here] at decided
          cases decided
      · intro opening
        cases opening
      · intro
        rfl
      · intro waiting
        cases waiting
      · intro decision acting
        cases acting
      · exact sound.silent
      · intro held here _
        rw [undecided held here]
  | recorded => cases stepEq
  | waiting => cases stepEq
  | acting decision => cases stepEq
  | gone => cases stepEq

/-- A request whose item is open when it is announced holds its agent. -/
theorem Request.Sound.announce (sound : request.Sound) (isOpen : request.isOpen = true)
    (stepEq : request.announce = some next) : next.Sound := by
  rcases request with ⟨gate, pending, channel, announced, item, acted⟩
  cases gate with
  | recorded =>
      cases stepEq
      have unannounced : announced = false := sound.recorded rfl
      have fresh : acted = [] := sound.silent unannounced
      subst fresh
      constructor
      · constructor
        · intro
          exact ⟨fun _ => rfl, fun _ => isOpen⟩
        · exact Nat.zero_le 1
        · exact sound.right.stored
      · intro opening
        cases opening
      · intro recorded
        cases recorded
      · intro
        exact ⟨rfl, rfl⟩
      · intro decision acting
        cases acting
      · intro known
        cases known
      · exact sound.blocking
  | opening => cases stepEq
  | waiting => cases stepEq
  | acting decision => cases stepEq
  | gone => cases stepEq

/-- A request that is announced without an open item holds its agent unseen. -/
theorem Request.isOpen_of_right (stepEq : request.announce = some next) (right : next.Right) :
    request.isOpen = true := by
  unfold Request.announce at stepEq
  split at stepEq
  · cases stepEq
    exact (right.held rfl).mpr rfl
  · cases stepEq

theorem Request.Sound.receive (sound : request.Sound) (stepEq : request.receive = some next) :
    next.Sound := by
  rcases request with ⟨gate, pending, channel, announced, item, acted⟩
  cases gate with
  | waiting =>
      cases channel with
      | none => cases stepEq
      | some decision =>
          cases stepEq
          rcases sound.waiting rfl with ⟨rfl, rfl⟩
          constructor
          · constructor
            · exact sound.right.held
            · exact Nat.le_refl 1
            · intro item text here decided
              have undecided := (sound.unresolved rfl here).mpr rfl
              rw [undecided] at decided
              cases decided
          · intro opening
            cases opening
          · intro recorded
            cases recorded
          · intro waiting
            cases waiting
          · rintro other ⟨⟩
            exact ⟨rfl, rfl⟩
          · intro unannounced
            cases unannounced
          · exact sound.blocking
  | opening => cases stepEq
  | recorded => cases stepEq
  | acting decision => cases stepEq
  | gone => cases stepEq

theorem Request.Sound.settle (sound : request.Sound) (stepEq : request.settle true = some next) :
    next.Sound := by
  rcases request with ⟨gate, pending, channel, announced, item, acted⟩
  cases gate with
  | acting decision =>
      cases stepEq
      rcases sound.acting decision rfl with ⟨rfl, rfl⟩
      have resolved : ∀ held, item = some held → held.resolve (decisionText decision) =
          { held with decision := some (decisionText decision), blocking := false } :=
        fun held here => resolve_of_undecided ((sound.unresolved rfl here).mpr rfl)
      constructor
      · constructor
        · intro
          cases item with
          | none => exact ⟨fun isOpen => isOpen, fun waits => waits⟩
          | some held => simp [Request.isOpen, Request.waits, resolved held rfl]
        · exact Nat.le_refl 1
        · intro after text here decided
          rcases Option.map_eq_some_iff.mp here with ⟨held, before, rfl⟩
          rw [resolved held before] at decided
          cases decided
          rfl
      · intro opening
        cases opening
      · intro recorded
        cases recorded
      · intro waiting
        cases waiting
      · intro other acting
        cases acting
      · intro unannounced
        cases unannounced
      · intro after here undecided
        rcases Option.map_eq_some_iff.mp here with ⟨held, before, rfl⟩
        rw [resolved held before] at undecided
        cases undecided
  | opening => cases stepEq
  | recorded => cases stepEq
  | waiting => cases stepEq
  | gone => cases stepEq

/-- A request whose item is not settled stays open without a gate. -/
theorem Request.Sound.written_of_right (sound : request.Sound) {written : Bool}
    (stepEq : request.settle written = some next) (right : next.Right) : written = true := by
  cases written with
  | true => rfl
  | false =>
      unfold Request.settle at stepEq
      split at stepEq
      · rename_i decision acting
        cases stepEq
        have announced := (sound.acting decision acting).1
        have isOpen : request.isOpen = true := by
          apply (sound.right.held announced).mpr
          rw [Request.waits, acting]
        cases (right.held announced).mp isOpen
      · cases stepEq

/-- An answer is written to an item that is open, and to no other. -/
theorem Request.Sound.answer_eq_self (sound : request.Sound) {decision : String} {written : Bool}
    (kept : request.Kept (.answer decision written)) :
    request.answer decision written = request := by
  unfold Request.answer
  split
  · rfl
  · rename_i words
    cases written with
    | false => rfl
    | true =>
        cases here : request.item with
        | none => rcases request with ⟨⟩; cases here; rfl
        | some item =>
            have decided : item.decision ≠ none := by
              intro undecided
              have isOpen : request.isOpen = true := by
                rw [Request.isOpen, here]
                simp [undecided, sound.blocking item here undecided]
              rcases kept isOpen with blank | unwritten
              · exact words blank
              · cases unwritten
            rw [if_pos rfl, Option.map_some, resolve_of_decided decided, ← here]

/-- An open item that is answered is resolved while the agent is still held. -/
theorem Request.Sound.kept_of_answer (sound : request.Sound) {decision : String} {written : Bool}
    (right : (request.answer decision written).Right) :
    request.Kept (.answer decision written) := by
  rcases request with ⟨gate, pending, channel, announced, item, acted⟩
  intro isOpen
  by_contra effective
  rw [not_or] at effective
  have written : written = true := by simpa using effective.2
  subst written
  cases item with
  | none => cases isOpen
  | some item =>
      have undecided : item.decision = none := by
        have both : item.decision = none ∧ item.blocking = true := by
          simpa [Request.isOpen] using isOpen
        exact both.1
      have answered : Request.answer ⟨gate, pending, channel, announced, some item, acted⟩ decision
          true = ⟨gate, pending, channel, announced,
            some { item with decision := some (trim decision), blocking := false }, acted⟩ := by
        rw [Request.answer, if_neg effective.1, if_pos rfl, Option.map_some,
          resolve_of_undecided undecided]
      rw [answered] at right
      cases announced with
      | true =>
          have waits := (sound.right.held rfl).mp isOpen
          cases (right.held rfl).mpr waits
      | false =>
          -- No decision was acted on yet, and the item has one.
          have fresh : acted = [] := sound.silent rfl
          have stored := right.stored _ _ rfl rfl
          rw [show (⟨gate, pending, channel, false, _, acted⟩ : Request).acted = [] from fresh]
            at stored
          cases stored

/-- Reading an item changes neither whether it is open nor how it is settled. -/
theorem Request.Sound.markRead (sound : request.Sound) : request.markRead.Sound := by
  rcases request with ⟨gate, pending, channel, announced, item, acted⟩
  rcases sound with ⟨⟨held, once, stored⟩, opening, recorded, waiting, acting, silent, blocking⟩
  cases item with
  | none => exact ⟨⟨held, once, stored⟩, opening, recorded, waiting, acting, silent, blocking⟩
  | some item =>
      refine ⟨⟨held, once, ?_⟩, opening, recorded, waiting, acting, silent, ?_⟩
      · rintro after text ⟨⟩ decided
        exact stored item text rfl decided
      · rintro after ⟨⟩ undecided
        exact blocking item rfl undecided

/-- A gate in which no agent is held may be dropped. -/
theorem Request.Sound.drop (sound : request.Sound) (idle : request.waits = false) :
    request.drop.Sound := by
  rcases request with ⟨gate, pending, channel, announced, item, acted⟩
  rcases sound with ⟨⟨held, once, stored⟩, opening, recorded, waiting, acting, silent, blocking⟩
  refine ⟨⟨?_, once, stored⟩, ?_, ?_, ?_, ?_, silent, blocking⟩
  · intro known
    rw [show (Request.drop ⟨gate, pending, channel, announced, item, acted⟩).isOpen =
      (⟨gate, pending, channel, announced, item, acted⟩ : Request).isOpen from rfl,
        held known, idle]
    rfl
  · intro gone
    cases gone
  · intro gone
    cases gone
  · intro gone
    cases gone
  · intro decision gone
    cases gone

/-- The item of an agent that is held is open without a gate when the gate is dropped. -/
theorem Request.Sound.idle_of_drop (sound : request.Sound) (right : request.drop.Right) :
    request.waits = false := by
  cases waits : request.waits with
  | false => rfl
  | true =>
      have announced : request.announced = true := by
        cases stage : request.gate with
        | opening => simp [Request.waits, stage] at waits
        | recorded => simp [Request.waits, stage] at waits
        | gone => simp [Request.waits, stage] at waits
        | waiting => exact (sound.waiting stage).1
        | acting decision => exact (sound.acting decision stage).1
      have isOpen := (sound.right.held announced).mpr waits
      cases (right.held announced).mp isOpen

/-- An event that keeps an item true leaves a request sound. -/
theorem Request.Sound.step (sound : request.Sound) (kept : request.Kept event)
    (stepEq : request.step event = some next) : next.Sound := by
  cases event with
  | record written => exact sound.record stepEq
  | announce => exact sound.announce kept stepEq
  | decide decision =>
      cases stepEq
      exact sound.decide decision
  | receive => exact sound.receive stepEq
  | settle written =>
      cases kept
      exact sound.settle stepEq
  | answer decision written =>
      cases stepEq
      rw [sound.answer_eq_self kept]
      exact sound
  | read =>
      cases stepEq
      exact sound.markRead
  | stop =>
      cases stepEq
      exact sound.drop kept

/-- And no other event does. -/
theorem Request.Sound.kept_of_right (sound : request.Sound)
    (stepEq : request.step event = some next) (right : next.Right) : request.Kept event := by
  cases event with
  | record written => trivial
  | announce => exact Request.isOpen_of_right stepEq right
  | decide decision => trivial
  | receive => trivial
  | settle written => exact sound.written_of_right stepEq right
  | answer decision written =>
      cases stepEq
      exact sound.kept_of_answer right
  | read => trivial
  | stop =>
      cases stepEq
      exact sound.idle_of_drop right

theorem Request.Sound.restart (sound : request.Sound) (idle : request.waits = false) :
    request.restart.Sound := by
  have dropped := sound.drop idle
  exact ⟨⟨dropped.right.held, dropped.right.once, dropped.right.stored⟩, dropped.opening,
    dropped.recorded, dropped.waiting, dropped.acting, dropped.silent, dropped.blocking⟩

/-- All requests are sound. -/
def AllSound (state : State) : Prop :=
  ∀ request ∈ state, request.Sound

theorem AllSound.step {label : Label} {after : State} (sound : AllSound state)
    (kept : Kept state label) (stepEq : Items.step state label = some after) : AllSound after := by
  cases label with
  | ask =>
      cases stepEq
      intro request mem
      rcases List.mem_append.mp mem with old | new
      · exact sound request old
      · rw [List.mem_singleton.mp new]
        exact Request.sound_opened
  | on n event =>
      rcases Option.bind_eq_some_iff.mp stepEq with ⟨request, here, stepped⟩
      rcases Option.map_eq_some_iff.mp stepped with ⟨next, changed, rfl⟩
      intro other mem
      rcases List.mem_or_eq_of_mem_set mem with old | rfl
      · exact sound other old
      · exact (sound request (List.mem_of_getElem? here)).step (kept request here) changed
  | restart =>
      cases stepEq
      intro other mem
      rcases List.mem_map.mp mem with ⟨request, here, rfl⟩
      exact (sound request here).restart (kept request here)

theorem AllSound.kept_of_right {label : Label} {after : State} (sound : AllSound state)
    (stepEq : Items.step state label = some after) (right : AllRight after) :
    Kept state label := by
  cases label with
  | ask => trivial
  | on n event =>
      rcases Option.bind_eq_some_iff.mp stepEq with ⟨request, here, stepped⟩
      rcases Option.map_eq_some_iff.mp stepped with ⟨next, changed, rfl⟩
      intro other found
      rw [here] at found
      cases found
      have bound : n < state.length := (List.getElem?_eq_some_iff.mp here).1
      exact (sound request (List.mem_of_getElem? here)).kept_of_right changed
        (right next (List.mem_set bound next))
  | restart =>
      cases stepEq
      intro request here
      have same := right request.restart (List.mem_map_of_mem here)
      exact (sound request here).idle_of_drop ⟨same.held, same.once, same.stored⟩

/-- The items of all requests tell the truth throughout a run exactly if each item is open
when it is announced, and settled, none is answered elsewhere while it is open, and no gate is
dropped while an agent is held in it. -/
theorem allRight_throughout_iff (labels : List Label) (target : State)
    (ran : run step [] labels = some target) :
    (∀ count middle, run step [] (labels.take count) = some middle → AllRight middle) ↔
      Along step Kept [] labels := by
  have right : ∀ ⦃state⦄, AllSound state → AllRight state :=
    fun _ sound request mem => (sound request mem).right
  apply throughout_iff_along_of right _ _ _ ran
  · intro state label next sound kept stepEq
    exact sound.step kept stepEq
  · intro state label next sound stepEq right
    exact sound.kept_of_right stepEq right
  · intro request mem
    cases mem

/-- A request that is recorded, announced, decided and settled. -/
def decidedLabels : List Label :=
  [.ask, .on 0 (.record true), .on 0 .announce, .on 0 .read, .on 0 (.decide .trust), .on 0 .receive,
    .on 0 (.settle true), .on 0 (.answer "yes" true)]

theorem allRight_decided :
    ∃ target, run step [] decidedLabels = some target ∧
      ((∀ count middle, run step [] (decidedLabels.take count) = some middle → AllRight middle) ↔
        Along step Kept [] decidedLabels) := by
  have runs : (run step [] decidedLabels).isSome = true := by decide +kernel
  rcases Option.isSome_iff_exists.mp runs with ⟨target, ran⟩
  exact ⟨target, ran, allRight_throughout_iff decidedLabels target ran⟩

/-- The item of a turn that was stopped waits for an answer that nobody waits for. -/
theorem stopped_item_open :
    ∃ target, run step [] [.ask, .on 0 (.record true), .on 0 .announce, .on 0 .stop] =
        some target ∧ ¬ AllRight target := by
  refine ⟨_, rfl, ?_⟩
  intro right
  cases ((right _ List.mem_cons_self).held rfl).mp rfl

/-- Where all is right and every request is announced, the badge counts the agents that are
held. -/
theorem notificationSummary_eq (sound : AllSound state)
    (announced : ∀ request ∈ state, request.announced = true) :
    notificationSummary state =
      (state.countP Request.waits, state.countP Request.waits) := by
  have unresolved : ∀ request ∈ state,
      ((request.item.any fun item => item.decision.isNone) = true ↔ request.waits = true) := by
    intro request mem
    rw [← (sound request mem).right.held (announced request mem), Request.isOpen]
    cases here : request.item with
    | none => rfl
    | some item =>
        have blocking := (sound request mem).blocking item here
        cases item.decision <;> simp_all
  have blocked : ∀ request ∈ state, ((request.item.any fun item =>
      item.decision.isNone && item.blocking) = true ↔ request.waits = true) :=
    fun request mem => (sound request mem).right.held (announced request mem)
  rw [notificationSummary, List.countP_congr unresolved, List.countP_congr blocked]

end ClotoCore.Approval.Items
