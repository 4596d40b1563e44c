import ClotoCore.Events.ActionGate

/-!
# Event cascades

An envelope that derives from another one should sit one level below it, and the
dispatch stops at the depth limit.  The replies of plugins keep to that.  The
processor's own requeues deepen too but do not look at the limit, and what an
agent turn emits starts over at depth 0 however deep the message was that
started the turn.
-/

namespace ClotoCore.Events

open ClotoCore.Transition

variable {config : Config} {state next : State} {label : Label}

/-! ## Chains of derived envelopes -/

/-- A chain of depths, nearest first: each one level below the next, down from
depth 0. -/
def Deepening : List UInt8 → Prop
  | [] => True
  | [root] => root = 0
  | depth :: parent :: rest => depth.toNat = parent.toNat + 1 ∧ Deepening (parent :: rest)

/-- On a deepening chain the depth is the number of ancestors. -/
theorem Deepening.toNat_eq {depth : UInt8} {ancestry : List UInt8}
    (deepening : Deepening (depth :: ancestry)) : depth.toNat = ancestry.length := by
  induction ancestry generalizing depth with
  | nil =>
      have root : depth = 0 := deepening
      rw [root]
      rfl
  | cons parent rest ih =>
      rw [deepening.1, ih deepening.2, List.length_cons]

/-- Below the limit one more level does not overflow. -/
theorem Deepening.deeper {depth limit : UInt8} {ancestry : List UInt8}
    (deepening : Deepening (depth :: ancestry)) (below : depth < limit) :
    Deepening ((depth + 1) :: depth :: ancestry) := by
  refine ⟨?_, deepening⟩
  have depthLt : depth.toNat < limit.toNat := UInt8.lt_iff_toNat_lt.mp below
  have limitLt := limit.toNat_lt
  rw [UInt8.toNat_add, Nat.mod_eq_of_lt]
  · rfl
  · show depth.toNat + 1 < 256
    omega

/-- A chain that restarts at depth 0 below another envelope is not deepening. -/
theorem not_deepening_restart (parent : UInt8) (rest : List UInt8) :
    ¬ Deepening (0 :: parent :: rest) := by
  intro deepening
  have sameDepth : (0 : UInt8).toNat = parent.toNat + 1 := deepening.1
  exact absurd sameDepth (Nat.succ_ne_zero _).symm

/-- The envelope sits at the end of a deepening chain of at most
`max_event_depth + 1` envelopes. -/
def Item.Bounded (config : Config) (item : Item) : Prop :=
  Deepening item.lineage ∧ item.lineage.length ≤ config.maxEventDepth.toNat + 1

/-- Cascades are bounded: every envelope ever sent is, and no plugin ever got one
at or above the limit. -/
structure CascadeBounded (config : Config) (state : State) : Prop where
  sent : ∀ item ∈ state.sent, item.Bounded config
  dispatched : ∀ plugin seqId depth, .delivered plugin seqId depth ∈ state.effects →
    depth < config.maxEventDepth

/-! ## What a step sends -/

/-- The events that the processor requeues a message for. -/
def ClotoEventData.requeues : ClotoEventData → Bool
  | .thoughtResponse _ _ _ _ _ => true
  | .mcpCallbackRequested _ _ callbackType _ _ => callbackType = "external_message"
  | _ => false

/-- No agent turn emits an event in this step, and a message is requeued only for
an event below the depth limit. -/
structure CascadeHeld (config : Config) (state : State) (label : Label) : Prop where
  noTurnEmits : ∀ index event, label ≠ .handlerEmit index event
  requeueBelow : ∀ resolution item seqEvent, label = .settle resolution →
    state.current = some ⟨item, seqEvent, .dispatched⟩ →
      item.envelope.event.data.requeues = true → item.envelope.depth < config.maxEventDepth

/-- The items that a step puts on their way. -/
inductive Sends (config : Config) (state : State) : Label → List Item → Prop where
  | nothing {label : Label} (quiet : CascadeHeld config state label) :
      Sends config state label []
  | injected (event : ClotoEvent) :
      Sends config state (.inject event) [⟨.system event, []⟩]
  | replied {item : Item} {seqEvent : SequencedEvent}
      (replies : List (String × ClotoEventData))
      (held : state.current = some ⟨item, seqEvent, .recorded⟩)
      (below : item.envelope.depth < config.maxEventDepth) :
      Sends config state (.dispatch replies)
        (replies.map fun reply => redispatchPluginEvent config item reply.1 reply.2)
  | requeued {item : Item} {seqEvent : SequencedEvent} (resolution : Resolution)
      (data : ClotoEventData) (held : state.current = some ⟨item, seqEvent, .dispatched⟩)
      (requeues : item.envelope.event.data.requeues = true) :
      Sends config state (.settle resolution) [requeue item data]
  | emitted {index : Nat} {turn : Turn} (event : ClotoEvent) (mem : turn ∈ state.turns) :
      Sends config state (.handlerEmit index event) [handlerItem turn event]

/-- The tasks around the processor hold envelopes that were sent. -/
structure Carried (state : State) : Prop where
  pending : ∀ item ∈ state.pending, item ∈ state.sent
  current : ∀ item seqEvent stage, state.current = some ⟨item, seqEvent, stage⟩ →
    item ∈ state.sent
  turns : ∀ turn ∈ state.turns, ∃ item ∈ state.sent, turn.lineage = item.lineage

theorem turn_mem_of_running {index : Nat} {turn : Turn}
    (running : state.running index = some turn) : turn ∈ state.turns := by
  simp only [State.running] at running
  split at running
  · rename_i other found
    split at running
    · cases running
    · cases running
      exact List.mem_of_getElem? found
  · cases running

theorem cascadeHeld_of_ne {label : Label} (noEmit : ∀ index event, label ≠ .handlerEmit index event)
    (noSettle : ∀ resolution, label ≠ .settle resolution) : CascadeHeld config state label where
  noTurnEmits := noEmit
  requeueBelow := fun resolution _ _ labelEq => absurd labelEq (noSettle resolution)

/-- Settling sends the requeued message, or nothing. -/
theorem sends_settleEvent (config : Config) {item : Item} {seqEvent : SequencedEvent}
    (resolution : Resolution)
    (held : state.current = some ⟨item, seqEvent, .dispatched⟩) :
    ∃ new, Sends config state (.settle resolution) new ∧
      (settleEvent config { state with current := none } ⟨item, seqEvent, .dispatched⟩
        resolution).sent = state.sent ++ new ∧
      (settleEvent config { state with current := none } ⟨item, seqEvent, .dispatched⟩
        resolution).pending = state.pending ++ new ∧
      (settleEvent config { state with current := none } ⟨item, seqEvent, .dispatched⟩
        resolution).turns = state.turns := by
  have quiet : item.envelope.event.data.requeues = false →
      Sends config state (.settle resolution) [] := by
    intro silent
    refine .nothing ⟨by simp, ?_⟩
    intro _ other otherEvent _ otherHeld requeues
    rw [held] at otherHeld
    cases otherHeld
    rw [silent] at requeues
    cases requeues
  simp only [settleEvent]
  cases data : item.envelope.event.data with
  | thoughtResponse agentId engineId content sourceMessageId autoSpoken =>
      exact ⟨_, .requeued resolution _ held (by rw [data]; rfl), rfl, rfl, rfl⟩
  | actionRequested requester action =>
      refine ⟨[], quiet (by rw [data]; rfl), ?_⟩
      simp only [settleAction, List.append_nil]
      split <;> exact ⟨rfl, rfl, rfl⟩
  | permissionGranted pluginId permission =>
      refine ⟨[], quiet (by rw [data]; rfl), ?_⟩
      simp only [settlePermission, List.append_nil]
      split <;> exact ⟨rfl, rfl, rfl⟩
  | mcpCallbackRequested callbackId serverId callbackType message metadata =>
      simp only
      split
      · rename_i external
        exact ⟨_, .requeued resolution _ held (by simp [data, ClotoEventData.requeues, external]),
          rfl, rfl, rfl⟩
      · rename_i notExternal
        exact ⟨[], quiet (by simp [data, ClotoEventData.requeues, notExternal]),
          (List.append_nil _).symm, (List.append_nil _).symm, rfl⟩
  | _ => exact ⟨[], quiet (by rw [data]; rfl), (List.append_nil _).symm,
      (List.append_nil _).symm, rfl⟩

/-- What is carried stays carried when a step adds only what it sends. -/
theorem Carried.extend (carried : Carried state) {new : List Item}
    (sentEq : next.sent = state.sent ++ new)
    (pendingSub : ∀ item ∈ next.pending, item ∈ state.pending ++ new)
    (currentSub : ∀ item seqEvent stage, next.current = some ⟨item, seqEvent, stage⟩ →
      item ∈ state.sent)
    (turnsSub : ∀ turn ∈ next.turns, turn ∈ state.turns ∨
      ∃ item ∈ state.sent, turn.lineage = item.lineage) : Carried next := by
  constructor
  · intro item mem
    rw [sentEq]
    rcases List.mem_append.mp (pendingSub item mem) with mem | mem
    · exact List.mem_append_left _ (carried.pending item mem)
    · exact List.mem_append_right _ mem
  · intro item seqEvent stage held
    rw [sentEq]
    exact List.mem_append_left _ (currentSub item seqEvent stage held)
  · intro turn mem
    have origin : ∃ item ∈ state.sent, turn.lineage = item.lineage := by
      rcases turnsSub turn mem with mem | origin
      · exact carried.turns turn mem
      · exact origin
    obtain ⟨item, sentMem, same⟩ := origin
    exact ⟨item, by rw [sentEq]; exact List.mem_append_left _ sentMem, same⟩

theorem lineage_of_mem_startTurns {item : Item} {turn : Turn} (mem : turn ∈ startTurns item) :
    turn.lineage = item.lineage := by
  simp only [startTurns] at mem
  split at mem
  · split at mem
    · obtain rfl := List.mem_singleton.mp mem
      rfl
    · simp at mem
  · simp at mem

/-- Every step sends what `Sends` allows, and the tasks carry what was sent. -/
theorem sends_of_step (carried : Carried state) (stepEq : step config state label = some next) :
    ∃ new, Sends config state label new ∧ next.sent = state.sent ++ new ∧ Carried next := by
  have silent : ∀ {label : Label}, (∀ index event, label ≠ .handlerEmit index event) →
      (∀ resolution, label ≠ .settle resolution) → Sends config state label [] :=
    fun noEmit noSettle => .nothing (cascadeHeld_of_ne noEmit noSettle)
  cases label with
  | inject event =>
      cases stepEq
      exact ⟨_, .injected event, rfl, carried.extend rfl (fun _ mem => mem) carried.current
        (fun _ mem => .inl mem)⟩
  | receive index =>
      simp only [step] at stepEq
      split at stepEq
      · rename_i item idle found
        cases stepEq
        have itemSent : item ∈ state.sent := carried.pending item (List.mem_of_getElem? found)
        refine ⟨[], silent (by simp) (by simp), (List.append_nil _).symm, ?_⟩
        refine carried.extend (List.append_nil state.sent).symm ?_ ?_ ?_
        · intro other mem
          exact List.mem_append_left _ (List.mem_of_mem_eraseIdx mem)
        · intro other seqEvent stage held
          cases held
          exact itemSent
        · intro turn mem
          rcases List.mem_append.mp mem with mem | mem
          · exact .inl mem
          · exact .inr ⟨item, itemSent, lineage_of_mem_startTurns mem⟩
      · cases stepEq
  | dispatch replies =>
      simp only [step] at stepEq
      split at stepEq
      · rename_i item seqEvent held
        have itemSent := carried.current item seqEvent .recorded held
        have currentSub : ∀ other otherEvent stage,
            some (⟨item, seqEvent, .dispatched⟩ : Processing) = some ⟨other, otherEvent, stage⟩ →
              other ∈ state.sent := by
          intro other otherEvent stage otherHeld
          cases otherHeld
          exact itemSent
        simp only [dispatchEvent] at stepEq
        split at stepEq
        · split at stepEq
          · cases stepEq
            exact ⟨[], silent (by simp) (by simp), (List.append_nil _).symm,
              carried.extend (List.append_nil _).symm (fun _ mem => List.mem_append_left _ mem)
                currentSub (fun _ mem => .inl mem)⟩
          · cases stepEq
        · rename_i shallow
          split at stepEq
          · cases stepEq
            exact ⟨_, .replied replies held (UInt8.not_le.mp shallow), rfl,
              carried.extend rfl (fun _ mem => mem) currentSub (fun _ mem => .inl mem)⟩
          · cases stepEq
      · cases stepEq
  | settle resolution =>
      obtain ⟨item, seqEvent, held, rfl⟩ := settle_eq_some stepEq
      obtain ⟨new, sends, sentEq, pendingEq, turnsEq⟩ := sends_settleEvent config resolution held
      refine ⟨new, sends, sentEq, carried.extend sentEq ?_ ?_ ?_⟩
      · rw [pendingEq]
        exact fun _ mem => mem
      · intro other otherEvent stage otherHeld
        rw [current_settleEvent] at otherHeld
        cases otherHeld
      · rw [turnsEq]
        exact fun _ mem => .inl mem
  | handlerEmit index event =>
      obtain ⟨turn, running, rfl⟩ := Option.map_eq_some_iff.mp stepEq
      exact ⟨_, .emitted event (turn_mem_of_running running), rfl,
        carried.extend rfl (fun _ mem => mem) carried.current (fun _ mem => .inl mem)⟩
  | turnEnds index =>
      obtain ⟨turn, _, rfl⟩ := Option.map_eq_some_iff.mp stepEq
      exact ⟨[], silent (by simp) (by simp), (List.append_nil _).symm,
        carried.extend (List.append_nil _).symm (fun _ mem => List.mem_append_left _ mem)
          carried.current (fun _ mem => .inl (List.mem_of_mem_eraseIdx mem))⟩
  | revoke pluginId permission =>
      cases stepEq
      exact ⟨[], silent (by simp) (by simp), (List.append_nil _).symm,
        carried.extend (List.append_nil _).symm (fun _ mem => List.mem_append_left _ mem)
          carried.current (fun _ mem => .inl mem)⟩
  | cleanup count =>
      cases stepEq
      exact ⟨[], silent (by simp) (by simp), (List.append_nil _).symm,
        carried.extend (List.append_nil _).symm (fun _ mem => List.mem_append_left _ mem)
          carried.current (fun _ mem => .inl mem)⟩

/-! ## One step -/

/-- A child one level below a bounded envelope under the limit is bounded. -/
theorem bounded_child {parent child : Item} (bounded : parent.Bounded config)
    (below : parent.envelope.depth < config.maxEventDepth)
    (depthEq : child.envelope.depth = parent.envelope.depth + 1)
    (ancestryEq : child.ancestry = parent.lineage) : child.Bounded config := by
  have lineageEq : child.lineage = (parent.envelope.depth + 1) :: parent.lineage := by
    rw [Item.lineage, depthEq, ancestryEq]
  obtain ⟨deepening, _⟩ := bounded
  refine ⟨?_, ?_⟩
  · rw [lineageEq]
    exact deepening.deeper below
  · have depthLt := UInt8.lt_iff_toNat_lt.mp below
    rw [deepening.toNat_eq] at depthLt
    rw [lineageEq, Item.lineage, List.length_cons, List.length_cons]
    exact Nat.succ_le_succ depthLt

/-- What a step sends is bounded exactly when the step holds the cascade. -/
theorem sends_bounded_iff (carried : Carried state)
    (bounded : ∀ item ∈ state.sent, item.Bounded config) {new : List Item}
    (sends : Sends config state label new) :
    (∀ item ∈ new, item.Bounded config) ↔ CascadeHeld config state label := by
  cases sends with
  | nothing quiet => simp [quiet]
  | injected event =>
      refine ⟨fun _ => cascadeHeld_of_ne (by simp) (by simp), ?_⟩
      intro _ item mem
      obtain rfl := List.mem_singleton.mp mem
      exact ⟨rfl, Nat.le_add_left _ _⟩
  | @replied parent seqEvent replies held below =>
      refine ⟨fun _ => cascadeHeld_of_ne (by simp) (by simp), ?_⟩
      intro _ item mem
      obtain ⟨reply, _, rfl⟩ := List.mem_map.mp mem
      exact bounded_child (bounded _ (carried.current _ _ _ held)) below rfl rfl
  | @requeued parent seqEvent resolution data held requeues =>
      have parentBounded := bounded _ (carried.current _ _ _ held)
      constructor
      · intro childBounded
        refine ⟨by simp, ?_⟩
        intro _ other otherEvent _ otherHeld _
        rw [held] at otherHeld
        cases otherHeld
        have short := (childBounded _ List.mem_cons_self).2
        have depthEq := parentBounded.1.toNat_eq
        simp only [Item.lineage, requeue, List.length_cons] at short
        rw [UInt8.lt_iff_toNat_lt, depthEq]
        omega
      · intro quiet item mem
        obtain rfl := List.mem_singleton.mp mem
        exact bounded_child parentBounded (quiet.requeueBelow resolution parent seqEvent rfl held
          requeues) rfl rfl
  | @emitted index turn event mem =>
      constructor
      · intro childBounded
        exfalso
        obtain ⟨parent, _, lineageEq⟩ := carried.turns turn mem
        have deepening := (childBounded _ List.mem_cons_self).1
        simp only [Item.lineage, handlerItem, lineageEq] at deepening
        exact not_deepening_restart _ _ deepening
      · intro quiet
        exact absurd rfl (quiet.noTurnEmits index event)

/-- No step hands an envelope at or above the limit to a plugin. -/
theorem delivered_below_of_step (stepEq : step config state label = some next)
    (below : ∀ plugin seqId depth, .delivered plugin seqId depth ∈ state.effects →
      depth < config.maxEventDepth) :
    ∀ plugin seqId depth, .delivered plugin seqId depth ∈ next.effects →
      depth < config.maxEventDepth := by
  intro plugin seqId depth mem
  cases progress_of_step stepEq with
  | around currentEq nextSeqEq effectsEq => exact below plugin seqId depth (effectsEq ▸ mem)
  | received item idle currentEq nextSeqEq effectsEq =>
      rw [effectsEq] at mem
      rcases List.mem_append.mp mem with mem | mem
      · exact below plugin seqId depth mem
      · rcases List.mem_append.mp mem with mem | mem
        · cases seqId_of_mem_storeEffects mem
        · split at mem <;> simp at mem
  | dispatched item seqEvent held currentEq nextSeqEq effectsEq =>
      rw [effectsEq] at mem
      rcases List.mem_append.mp mem with mem | mem
      · exact below plugin seqId depth mem
      · obtain ⟨shallow, _, _, same⟩ := mem_deliveries.mp mem
        cases same
        exact UInt8.not_le.mp shallow
  | settled item seqEvent held currentEq nextSeqLe newSeq effectsEq =>
      rw [effectsEq] at mem
      rcases List.mem_append.mp mem with mem | mem
      · exact below plugin seqId depth mem
      · simp only [settleEffects] at mem
        split at mem
        · split at mem <;> simp at mem
        · split at mem
          · rcases List.mem_append.mp mem with mem | mem
            · cases seqId_of_mem_storeEffects mem
            · simp at mem
          · simp at mem
        · simp at mem

/-! ## Runs -/

/-- A kernel that has just started: nothing is on its way and no turn runs. -/
structure Quiescent (state : State) : Prop extends Starting state where
  noPending : state.pending = []
  noTurns : state.turns = []
  unsent : state.sent = []

theorem Quiescent.carried (quiescent : Quiescent state) : Carried state where
  pending := by simp [quiescent.noPending]
  current := by simp [quiescent.idle]
  turns := by simp [quiescent.noTurns]

theorem Quiescent.bounded (quiescent : Quiescent state) : CascadeBounded config state where
  sent := by simp [quiescent.unsent]
  dispatched := by simp [quiescent.unlogged]

theorem sent_subset_of_run {target : State} {labels : List Label} (carried : Carried state)
    (ran : run (step config) state labels = some target) {item : Item}
    (mem : item ∈ state.sent) : item ∈ target.sent := by
  refine (run_invariant (fun other => Carried other ∧ item ∈ other.sent) ?_
    ⟨carried, mem⟩ ran).2
  rintro other label next ⟨otherCarried, otherMem⟩ stepEq
  obtain ⟨new, _, sentEq, nextCarried⟩ := sends_of_step otherCarried stepEq
  exact ⟨nextCarried, by rw [sentEq]; exact List.mem_append_left _ otherMem⟩

/-- A step that holds the cascade keeps it bounded. -/
theorem CascadeBounded.step (bounded : CascadeBounded config state) (carried : Carried state)
    (quiet : CascadeHeld config state label) (stepEq : step config state label = some next) :
    CascadeBounded config next := by
  obtain ⟨new, sends, sentEq, _⟩ := sends_of_step carried stepEq
  refine ⟨?_, delivered_below_of_step stepEq bounded.dispatched⟩
  intro item mem
  rw [sentEq] at mem
  rcases List.mem_append.mp mem with mem | mem
  · exact bounded.sent item mem
  · exact (sends_bounded_iff carried bounded.sent sends).mpr quiet item mem

/-- The cascades of a run are bounded exactly when no agent turn emits an event
in it and every message is requeued for an event below the depth limit. -/
theorem run_cascadeBounded_iff {start target : State} {labels : List Label}
    (quiescent : Quiescent start) (ran : run (step config) start labels = some target) :
    CascadeBounded config target ↔
      Along (step config) (CascadeHeld config) start labels := by
  constructor
  · intro bounded
    have carried := quiescent.carried
    clear quiescent
    induction labels generalizing start with
    | nil => trivial
    | cons label labels ih =>
        obtain ⟨middle, stepEq, rest⟩ := run_cons_eq_some_iff.mp ran
        obtain ⟨new, sends, sentEq, middleCarried⟩ := sends_of_step carried stepEq
        have inTarget : ∀ item ∈ start.sent ++ new, item.Bounded config := by
          intro item mem
          exact bounded.sent item (sent_subset_of_run middleCarried rest (sentEq ▸ mem))
        refine ⟨?_, ?_⟩
        · apply (sends_bounded_iff carried _ sends).mp
          · exact fun item mem => inTarget item (List.mem_append_right _ mem)
          · exact fun item mem => inTarget item (List.mem_append_left _ mem)
        · intro other otherEq
          rw [stepEq] at otherEq
          cases otherEq
          exact ih rest middleCarried
  · intro along
    refine (run_invariant_along
      (fun state => Carried state ∧ CascadeBounded config state) ?_
      ⟨quiescent.carried, quiescent.bounded⟩ along ran).2
    rintro state label next ⟨carried, bounded⟩ quiet stepEq
    obtain ⟨_, _, _, nextCarried⟩ := sends_of_step carried stepEq
    exact ⟨nextCarried, bounded.step carried quiet stepEq⟩

/-! ## A conversation that never ends -/

/-- The values of `MAX_EVENT_DEPTH` that the configuration accepts. -/
def Config.Accepted (config : Config) : Prop :=
  1 ≤ config.maxEventDepth ∧ config.maxEventDepth ≤ 25

/-- Every run of every kernel has bounded cascades. -/
def CascadesBounded : Prop :=
  ∀ (config : Config), config.Accepted → ∀ (start target : State) (labels : List Label),
    Quiescent start → run (step config) start labels = some target →
      CascadeBounded config target

/-- A user's message to an agent. -/
def userMessage : ClotoMessage where
  id := "m-0"
  source := .user "u" "User"
  targetAgent := some "agent.a"
  content := "hello"
  metadata := []

/-- A message starts a turn, and the turn answers: the answer is back at depth 0. -/
def answerRun : List Label :=
  [.inject ⟨7, .messageReceived userMessage⟩, .receive 0, .dispatch [], .settle sampleResolution,
    .handlerEmit 0 ⟨7, .thoughtResponse "agent.a" "engine.a" "hi" "m-0" false⟩]

theorem quiescent_freshState : Quiescent freshState :=
  ⟨starting_freshState, rfl, rfl, rfl⟩

theorem exists_answerRun : ∃ state item, run (step halConfig) freshState answerRun = some state ∧
    item ∈ state.sent ∧ item.lineage = [0, 0] :=
  ⟨_, _, rfl, List.mem_cons_of_mem _ List.mem_cons_self, rfl⟩

theorem not_cascadesBounded : ¬ CascadesBounded := by
  intro bounded
  obtain ⟨state, item, ran, mem, lineageEq⟩ := exists_answerRun
  have accepted : halConfig.Accepted := ⟨by decide, by decide⟩
  have target := bounded halConfig accepted freshState state answerRun quiescent_freshState ran
  have deepening := (target.sent item mem).1
  rw [lineageEq] at deepening
  exact not_deepening_restart 0 [] deepening

theorem run_cascadeBounded_iff_answerRun : ∃ state,
    run (step halConfig) freshState answerRun = some state ∧
      (CascadeBounded halConfig state ↔
        Along (step halConfig) (CascadeHeld halConfig) freshState answerRun) := by
  obtain ⟨state, _, ran, _⟩ := exists_answerRun
  exact ⟨state, ran, run_cascadeBounded_iff quiescent_freshState ran⟩

end ClotoCore.Events
