import ClotoCore.Events.Permissions
import Mathlib.Order.Nat

/-!
# The authorization gate on actions

The processor checks an `ActionRequested` in the last step of its iteration.  By
then the event is in the history and every plugin has seen it; only the
broadcast waits for the check.
-/

namespace ClotoCore.Events

open ClotoCore.Transition

variable {config : Config} {state next : State} {label : Label}

/-! ## The effects of a step -/

/-- The effects of taking an envelope up. -/
def receiveEffects (config : Config) (seqId : Nat) (data : ClotoEventData) : List Effect :=
  storeEffects config seqId ++ if data.broadcastFirst then [.broadcast seqId] else []

/-- The effects of dispatching an envelope. -/
def deliveries (config : Config) (seqId : Nat) (depth : UInt8) : List Effect :=
  if config.maxEventDepth ≤ depth then []
  else config.plugins.map fun plugin => .delivered plugin seqId depth

/-- The effects of settling an envelope. -/
def settleEffects (config : Config) (state : State) (envelope : EnvelopedEvent) (seqId : Nat)
    (now : Nat) : List Effect :=
  match envelope.event.data with
  | .actionRequested requester _ =>
      if actionVerdict config state envelope requester now = .authorized then
        [.broadcast seqId, .authorized seqId]
      else [.refused seqId]
  | .mcpCallbackRequested _ _ callbackType _ _ =>
      if callbackType = "external_message" then
        storeEffects config state.nextSeq ++ [.broadcast state.nextSeq]
      else []
  | _ => []

/-- What a step does to the processor, its counter and the effects. -/
inductive Progress (config : Config) (state : State) : Label → State → Prop where
  | around {label : Label} {next : State} (currentEq : next.current = state.current)
      (nextSeqEq : next.nextSeq = state.nextSeq) (effectsEq : next.effects = state.effects) :
      Progress config state label next
  | received {index : Nat} {next : State} (item : Item) (idle : state.current = none)
      (currentEq : next.current =
        some ⟨item, ⟨state.nextSeq, item.envelope.event⟩, .recorded⟩)
      (nextSeqEq : next.nextSeq = state.nextSeq + 1)
      (effectsEq : next.effects =
        state.effects ++ receiveEffects config state.nextSeq item.envelope.event.data) :
      Progress config state (.receive index) next
  | dispatched {replies : List (String × ClotoEventData)} {next : State} (item : Item)
      (seqEvent : SequencedEvent) (held : state.current = some ⟨item, seqEvent, .recorded⟩)
      (currentEq : next.current = some ⟨item, seqEvent, .dispatched⟩)
      (nextSeqEq : next.nextSeq = state.nextSeq)
      (effectsEq : next.effects =
        state.effects ++ deliveries config seqEvent.seqId item.envelope.depth) :
      Progress config state (.dispatch replies) next
  | settled {resolution : Resolution} {next : State} (item : Item) (seqEvent : SequencedEvent)
      (held : state.current = some ⟨item, seqEvent, .dispatched⟩)
      (currentEq : next.current = none) (nextSeqLe : state.nextSeq ≤ next.nextSeq)
      (below : ∀ effect ∈ settleEffects config state item.envelope seqEvent.seqId resolution.now,
        effect.seqId = seqEvent.seqId ∨
          state.nextSeq ≤ effect.seqId ∧ effect.seqId < next.nextSeq)
      (effectsEq : next.effects = state.effects ++
        settleEffects config state item.envelope seqEvent.seqId resolution.now) :
      Progress config state (.settle resolution) next

theorem seqId_of_mem_storeEffects {seqId : Nat} {effect : Effect}
    (mem : effect ∈ storeEffects config seqId) : effect = .stored seqId := by
  simp only [storeEffects] at mem
  split at mem
  · simp at mem
  · simpa using mem

theorem current_settleEvent (config : Config) (state : State) (processing : Processing)
    (resolution : Resolution) :
    (settleEvent config state processing resolution).current = state.current := by
  simp only [settleEvent]
  cases processing.item.envelope.event.data with
  | actionRequested requester action =>
      simp only [settleAction]
      split <;> rfl
  | permissionGranted pluginId permission =>
      simp only [settlePermission]
      split <;> rfl
  | mcpCallbackRequested callbackId serverId callbackType message metadata =>
      simp only
      split <;> rfl
  | _ => rfl

theorem effects_settleEvent (config : Config) (state : State) (processing : Processing)
    (resolution : Resolution) :
    (settleEvent config state processing resolution).effects = state.effects ++
      settleEffects config state processing.item.envelope processing.seqEvent.seqId
        resolution.now := by
  simp only [settleEvent, settleEffects]
  cases processing.item.envelope.event.data with
  | actionRequested requester action =>
      simp only [settleAction]
      split <;> rename_i verdict <;> simp [verdict, State.log]
  | permissionGranted pluginId permission =>
      simp only [settlePermission, List.append_nil]
      split <;> rfl
  | mcpCallbackRequested callbackId serverId callbackType message metadata =>
      simp only
      split
      · exact List.append_assoc _ _ _
      · exact (List.append_nil _).symm
  | _ => exact (List.append_nil _).symm

/-- Only an external message takes a sequence id of its own. -/
theorem nextSeq_settleEvent (config : Config) (state : State) (processing : Processing)
    (resolution : Resolution) :
    (settleEvent config state processing resolution).nextSeq =
      match processing.item.envelope.event.data with
      | .mcpCallbackRequested _ _ callbackType _ _ =>
          if callbackType = "external_message" then state.nextSeq + 1 else state.nextSeq
      | _ => state.nextSeq := by
  simp only [settleEvent]
  cases processing.item.envelope.event.data with
  | actionRequested requester action =>
      simp only [settleAction]
      split <;> rfl
  | permissionGranted pluginId permission =>
      simp only [settlePermission]
      split <;> rfl
  | mcpCallbackRequested callbackId serverId callbackType message metadata =>
      simp only
      split <;> rfl
  | _ => rfl

theorem nextSeq_le_settleEvent (config : Config) (state : State) (processing : Processing)
    (resolution : Resolution) :
    state.nextSeq ≤ (settleEvent config state processing resolution).nextSeq := by
  rw [nextSeq_settleEvent]
  split
  · split
    · exact Nat.le_succ _
    · exact Nat.le_refl _
  · exact Nat.le_refl _

/-- What settling adds is about the settled event or takes a new sequence id. -/
theorem seqId_of_mem_settleEffects (state : State) (processing : Processing)
    {resolution : Resolution} {effect : Effect}
    (mem : effect ∈ settleEffects config state processing.item.envelope
      processing.seqEvent.seqId resolution.now) :
    effect.seqId = processing.seqEvent.seqId ∨
      state.nextSeq ≤ effect.seqId ∧
        effect.seqId < (settleEvent config state processing resolution).nextSeq := by
  rw [nextSeq_settleEvent]
  simp only [settleEffects] at mem
  cases data : processing.item.envelope.event.data with
  | actionRequested requester action =>
      left
      simp only [data] at mem
      split at mem
      · rcases List.mem_cons.mp mem with rfl | mem
        · rfl
        · obtain rfl := List.mem_singleton.mp mem
          rfl
      · obtain rfl := List.mem_singleton.mp mem
        rfl
  | mcpCallbackRequested callbackId serverId callbackType message metadata =>
      right
      simp only [data] at mem
      split at mem
      · rename_i external
        have seqEq : effect.seqId = state.nextSeq := by
          rcases List.mem_append.mp mem with mem | mem
          · rw [seqId_of_mem_storeEffects mem]
            rfl
          · obtain rfl := List.mem_singleton.mp mem
            rfl
        simp [external, seqEq]
      · simp at mem
  | _ => simp [data] at mem

theorem progress_of_step (stepEq : step config state label = some next) :
    Progress config state label next := by
  cases label with
  | inject event =>
      cases stepEq
      exact .around rfl rfl rfl
  | receive index =>
      simp only [step] at stepEq
      split at stepEq
      · rename_i item idle _
        cases stepEq
        exact .received item idle rfl rfl (List.append_assoc _ _ _)
      · cases stepEq
  | dispatch replies =>
      simp only [step] at stepEq
      split at stepEq
      · rename_i item seqEvent held
        simp only [dispatchEvent] at stepEq
        split at stepEq
        · rename_i tooDeep
          split at stepEq
          · cases stepEq
            exact .dispatched item seqEvent held rfl rfl (by simp [deliveries, tooDeep])
          · cases stepEq
        · rename_i below
          split at stepEq
          · cases stepEq
            refine .dispatched item seqEvent held rfl rfl ?_
            simp [deliveries, below, State.log, State.sendAll]
          · cases stepEq
      · cases stepEq
  | settle resolution =>
      obtain ⟨item, seqEvent, held, rfl⟩ := settle_eq_some stepEq
      refine .settled item seqEvent held (current_settleEvent _ _ _ _)
        (nextSeq_le_settleEvent _ { state with current := none } _ _) ?_
        (effects_settleEvent _ _ _ _)
      intro effect mem
      exact seqId_of_mem_settleEffects { state with current := none }
        ⟨item, seqEvent, .dispatched⟩ mem
  | handlerEmit index event =>
      obtain ⟨turn, _, rfl⟩ := Option.map_eq_some_iff.mp stepEq
      exact .around rfl rfl rfl
  | turnEnds index =>
      obtain ⟨turn, _, rfl⟩ := Option.map_eq_some_iff.mp stepEq
      exact .around rfl rfl rfl
  | revoke pluginId revoked =>
      cases stepEq
      exact .around rfl rfl rfl
  | cleanup count =>
      cases stepEq
      exact .around rfl rfl rfl

/-! ## The gate -/

/-- The gate on actions: a refused action was neither stored nor broadcast nor
delivered, an authorized one was delivered to every plugin. -/
structure GateRespected (config : Config) (effects : List Effect) : Prop where
  refused : ∀ seqId, .refused seqId ∈ effects → .stored seqId ∉ effects ∧
    .broadcast seqId ∉ effects ∧ ∀ plugin depth, .delivered plugin seqId depth ∉ effects
  authorized : ∀ seqId, .authorized seqId ∈ effects → ∀ plugin ∈ config.plugins,
    ∃ depth, .delivered plugin seqId depth ∈ effects

/-- The step does not settle an action that breaks the gate: a refused one that
was stored or dispatched, or an authorized one that the depth limit stopped. -/
def GateHeld (config : Config) (state : State) (label : Label) : Prop :=
  ∀ resolution item seqEvent requester action, label = .settle resolution →
    state.current = some ⟨item, seqEvent, .dispatched⟩ →
      item.envelope.event.data = .actionRequested requester action →
        if actionVerdict config state item.envelope requester resolution.now = .authorized then
          config.plugins = [] ∨ item.envelope.depth < config.maxEventDepth
        else
          config.maxHistorySize = 0 ∧
            (config.plugins = [] ∨ config.maxEventDepth ≤ item.envelope.depth)

/-- The effects about one event. -/
def effectsOf (effects : List Effect) (seqId : Nat) : List Effect :=
  effects.filter fun effect => effect.seqId = seqId

/-- The effects about the event in the processor's hands, by stage. -/
def stageEffects (config : Config) (item : Item) (seqId : Nat) : Stage → List Effect
  | .recorded => receiveEffects config seqId item.envelope.event.data
  | .dispatched => receiveEffects config seqId item.envelope.event.data ++
      deliveries config seqId item.envelope.depth

/-- What the effects say about the event in the processor's hands. -/
structure Tracked (config : Config) (state : State) : Prop where
  bounded : ∀ effect ∈ state.effects, effect.seqId < state.nextSeq
  current : ∀ item seqEvent stage, state.current = some ⟨item, seqEvent, stage⟩ →
    seqEvent.seqId < state.nextSeq ∧
      effectsOf state.effects seqEvent.seqId = stageEffects config item seqEvent.seqId stage

theorem mem_effectsOf {effects : List Effect} {effect : Effect} {seqId : Nat}
    (about : effect.seqId = seqId) : effect ∈ effectsOf effects seqId ↔ effect ∈ effects := by
  simp [effectsOf, about]

theorem effectsOf_append (first second : List Effect) (seqId : Nat) :
    effectsOf (first ++ second) seqId = effectsOf first seqId ++ effectsOf second seqId :=
  List.filter_append _ _

theorem effectsOf_eq_self {effects : List Effect} {seqId : Nat}
    (about : ∀ effect ∈ effects, effect.seqId = seqId) : effectsOf effects seqId = effects := by
  rw [effectsOf, List.filter_eq_self]
  intro effect mem
  simpa using about effect mem

theorem effectsOf_eq_nil {effects : List Effect} {seqId : Nat}
    (apart : ∀ effect ∈ effects, effect.seqId ≠ seqId) : effectsOf effects seqId = [] := by
  rw [effectsOf, List.filter_eq_nil_iff]
  intro effect mem
  simpa using apart effect mem

theorem effectsOf_append_apart {first second : List Effect} {seqId : Nat}
    (apart : ∀ effect ∈ second, effect.seqId ≠ seqId) :
    effectsOf (first ++ second) seqId = effectsOf first seqId := by
  rw [effectsOf_append, effectsOf_eq_nil apart, List.append_nil]

theorem seqId_of_mem_receiveEffects {seqId : Nat} {data : ClotoEventData} {effect : Effect}
    (mem : effect ∈ receiveEffects config seqId data) : effect.seqId = seqId := by
  rcases List.mem_append.mp mem with mem | mem
  · rw [seqId_of_mem_storeEffects mem]
    rfl
  · split at mem
    · obtain rfl := List.mem_singleton.mp mem
      rfl
    · simp at mem

theorem mem_deliveries {seqId : Nat} {depth : UInt8} {effect : Effect} :
    effect ∈ deliveries config seqId depth ↔ ¬ config.maxEventDepth ≤ depth ∧
      ∃ plugin ∈ config.plugins, effect = .delivered plugin seqId depth := by
  simp only [deliveries]
  split <;> simp_all [eq_comm]

theorem seqId_of_mem_deliveries {seqId : Nat} {depth : UInt8} {effect : Effect}
    (mem : effect ∈ deliveries config seqId depth) : effect.seqId = seqId := by
  obtain ⟨_, plugin, _, rfl⟩ := mem_deliveries.mp mem
  rfl

theorem Tracked.step (tracked : Tracked config state)
    (stepEq : step config state label = some next) : Tracked config next := by
  cases progress_of_step stepEq with
  | around currentEq nextSeqEq effectsEq =>
      constructor
      · rw [nextSeqEq, effectsEq]
        exact tracked.bounded
      · rw [nextSeqEq, effectsEq, currentEq]
        exact tracked.current
  | received item idle currentEq nextSeqEq effectsEq =>
      have new : ∀ effect ∈ receiveEffects config state.nextSeq item.envelope.event.data,
          effect.seqId = state.nextSeq := fun _ mem => seqId_of_mem_receiveEffects mem
      constructor
      · rw [nextSeqEq, effectsEq]
        intro effect mem
        rcases List.mem_append.mp mem with mem | mem
        · exact Nat.lt_succ_of_lt (tracked.bounded effect mem)
        · rw [new effect mem]
          exact Nat.lt_succ_self _
      · intro other seqEvent stage held
        rw [currentEq] at held
        cases held
        rw [nextSeqEq, effectsEq, effectsOf_append, effectsOf_eq_self new, effectsOf_eq_nil]
        · exact ⟨Nat.lt_succ_self _, rfl⟩
        · exact fun effect mem => (tracked.bounded effect mem).ne
  | dispatched item seqEvent held currentEq nextSeqEq effectsEq =>
      obtain ⟨below, recorded⟩ := tracked.current item seqEvent .recorded held
      constructor
      · rw [nextSeqEq, effectsEq]
        intro effect mem
        rcases List.mem_append.mp mem with mem | mem
        · exact tracked.bounded effect mem
        · rw [seqId_of_mem_deliveries mem]
          exact below
      · intro other otherEvent stage otherHeld
        rw [currentEq] at otherHeld
        cases otherHeld
        rw [nextSeqEq, effectsEq, effectsOf_append, recorded,
          effectsOf_eq_self fun _ mem => seqId_of_mem_deliveries mem]
        exact ⟨below, rfl⟩
  | settled item seqEvent held currentEq nextSeqLe below effectsEq =>
      obtain ⟨seqBelow, _⟩ := tracked.current item seqEvent .dispatched held
      constructor
      · rw [effectsEq]
        intro effect mem
        rcases List.mem_append.mp mem with mem | mem
        · exact (tracked.bounded effect mem).trans_le nextSeqLe
        · rcases below effect mem with about | ⟨_, new⟩
          · rw [about]
            exact seqBelow.trans_le nextSeqLe
          · exact new
      · intro other otherEvent stage otherHeld
        rw [currentEq] at otherHeld
        cases otherHeld

/-! ## Runs -/

/-- The verdicts among a list of effects. -/
def Effect.isVerdict : Effect → Bool
  | .refused _ | .authorized _ => true
  | _ => false

/-- Effects that are no verdicts and concern no refused event keep the gate. -/
theorem GateRespected.append {effects new : List Effect} (gate : GateRespected config effects)
    (plain : ∀ effect ∈ new, effect.isVerdict = false)
    (apart : ∀ effect ∈ new, .refused effect.seqId ∉ effects) :
    GateRespected config (effects ++ new) := by
  constructor
  case refused =>
    intro seqId mem
    rcases List.mem_append.mp mem with mem | mem
    · obtain ⟨notStored, notBroadcast, notDelivered⟩ := gate.refused seqId mem
      refine ⟨?_, ?_, ?_⟩
      · rintro stored
        rcases List.mem_append.mp stored with stored | stored
        · exact notStored stored
        · exact apart _ stored mem
      · rintro broadcast
        rcases List.mem_append.mp broadcast with broadcast | broadcast
        · exact notBroadcast broadcast
        · exact apart _ broadcast mem
      · rintro plugin depth delivered
        rcases List.mem_append.mp delivered with delivered | delivered
        · exact notDelivered plugin depth delivered
        · exact apart _ delivered mem
    · have verdict := plain _ mem
      simp [Effect.isVerdict] at verdict
  case authorized =>
    intro seqId mem plugin registered
    rcases List.mem_append.mp mem with mem | mem
    · obtain ⟨depth, delivered⟩ := gate.authorized seqId mem plugin registered
      exact ⟨depth, List.mem_append_left _ delivered⟩
    · have verdict := plain _ mem
      simp [Effect.isVerdict] at verdict

theorem isVerdict_of_mem_stageEffects (item : Item) {seqId : Nat} (stage : Stage)
    {effect : Effect} (mem : effect ∈ stageEffects config item seqId stage) :
    effect.isVerdict = false := by
  have received : ∀ effect ∈ receiveEffects config seqId item.envelope.event.data,
      effect.isVerdict = false := by
    intro effect mem
    rcases List.mem_append.mp mem with mem | mem
    · rw [seqId_of_mem_storeEffects mem]
      rfl
    · split at mem
      · obtain rfl := List.mem_singleton.mp mem
        rfl
      · simp at mem
  cases stage with
  | recorded => exact received effect mem
  | dispatched =>
      rcases List.mem_append.mp mem with mem | mem
      · exact received effect mem
      · obtain ⟨_, plugin, _, rfl⟩ := mem_deliveries.mp mem
        rfl

/-- The event in the processor's hands has no verdict yet. -/
theorem Tracked.refused_notMem (tracked : Tracked config state) {item : Item}
    {seqEvent : SequencedEvent} {stage : Stage}
    (held : state.current = some ⟨item, seqEvent, stage⟩) :
    .refused seqEvent.seqId ∉ state.effects := by
  intro mem
  have current := (tracked.current item seqEvent stage held).2
  have inStage := (mem_effectsOf rfl).mpr mem
  rw [show (Effect.refused seqEvent.seqId).seqId = seqEvent.seqId from rfl, current] at inStage
  have verdict := isVerdict_of_mem_stageEffects item stage inStage
  simp [Effect.isVerdict] at verdict

/-- What was done with an action before its check. -/
theorem Tracked.action_effects (tracked : Tracked config state) {item : Item}
    {seqEvent : SequencedEvent} {requester : ClotoId} {action : HandAction}
    (held : state.current = some ⟨item, seqEvent, .dispatched⟩)
    (data : item.envelope.event.data = .actionRequested requester action) (effect : Effect)
    (about : effect.seqId = seqEvent.seqId) :
    effect ∈ state.effects ↔ effect ∈ storeEffects config seqEvent.seqId ∨
      effect ∈ deliveries config seqEvent.seqId item.envelope.depth := by
  rw [← mem_effectsOf about, (tracked.current item seqEvent .dispatched held).2]
  simp [stageEffects, receiveEffects, data, ClotoEventData.broadcastFirst]

theorem storeEffects_eq_nil_iff (seqId : Nat) :
    .stored seqId ∉ storeEffects config seqId ↔ config.maxHistorySize = 0 := by
  simp only [storeEffects]
  split <;> simp_all

/-- A refusal keeps the gate when the event left no other effect. -/
theorem GateRespected.refuse {effects : List Effect} {seqId : Nat}
    (gate : GateRespected config effects)
    (untouched : ∀ effect ∈ effects, effect.seqId ≠ seqId) :
    GateRespected config (effects ++ [.refused seqId]) := by
  constructor
  case refused =>
    intro other mem
    simp only [List.mem_append, List.mem_singleton, reduceCtorEq, or_false] at mem ⊢
    rcases mem with mem | mem
    · exact gate.refused other mem
    · obtain rfl : other = seqId := by simpa using mem
      exact ⟨fun stored => untouched _ stored rfl, fun broadcast => untouched _ broadcast rfl,
        fun plugin depth delivered => untouched _ delivered rfl⟩
  case authorized =>
    intro other mem plugin registered
    simp only [List.mem_append, List.mem_singleton, reduceCtorEq, or_false] at mem ⊢
    exact gate.authorized other mem plugin registered

/-- An authorization keeps the gate when every plugin got the event. -/
theorem GateRespected.authorize {effects : List Effect} {seqId : Nat}
    (gate : GateRespected config effects) (unrefused : .refused seqId ∉ effects)
    (everyPlugin : ∀ plugin ∈ config.plugins, ∃ depth, .delivered plugin seqId depth ∈ effects) :
    GateRespected config (effects ++ [.broadcast seqId, .authorized seqId]) := by
  constructor
  case refused =>
    intro other mem
    simp only [List.mem_append, List.mem_cons, List.not_mem_nil, reduceCtorEq, or_false] at mem ⊢
    obtain ⟨notStored, notBroadcast, notDelivered⟩ := gate.refused other mem
    refine ⟨notStored, ?_, notDelivered⟩
    rintro (broadcast | broadcast)
    · exact notBroadcast broadcast
    · obtain rfl : other = seqId := by simpa using broadcast
      exact unrefused mem
  case authorized =>
    intro other mem plugin registered
    simp only [List.mem_append, List.mem_cons, List.not_mem_nil, reduceCtorEq, or_false,
      false_or] at mem ⊢
    rcases mem with mem | mem
    · exact gate.authorized other mem plugin registered
    · obtain rfl : other = seqId := by simpa using mem
      exact everyPlugin plugin registered

/-- Settling anything but an action gives no verdict. -/
theorem isVerdict_of_mem_settleEffects {envelope : EnvelopedEvent} {seqId now : Nat}
    (notAction : ∀ requester action, envelope.event.data ≠ .actionRequested requester action)
    {effect : Effect} (mem : effect ∈ settleEffects config state envelope seqId now) :
    effect.isVerdict = false := by
  simp only [settleEffects] at mem
  split at mem
  · rename_i requester action data
    exact absurd data (notAction requester action)
  · split at mem
    · rcases List.mem_append.mp mem with mem | mem
      · rw [seqId_of_mem_storeEffects mem]
        rfl
      · obtain rfl := List.mem_singleton.mp mem
        rfl
    · simp at mem
  · simp at mem

/-- A step that holds the gate keeps it respected. -/
theorem GateRespected.step (gate : GateRespected config state.effects)
    (tracked : Tracked config state) (gateHeld : GateHeld config state label)
    (stepEq : step config state label = some next) : GateRespected config next.effects := by
  have newUnrefused : ∀ seqId, state.nextSeq ≤ seqId → .refused seqId ∉ state.effects := by
    intro seqId fresh mem
    exact absurd (tracked.bounded _ mem) (not_lt.mpr fresh)
  cases progress_of_step stepEq with
  | around currentEq nextSeqEq effectsEq => rwa [effectsEq]
  | received item idle currentEq nextSeqEq effectsEq =>
      rw [effectsEq]
      apply gate.append
      · intro effect mem
        exact isVerdict_of_mem_stageEffects item .recorded mem
      · intro effect mem
        rw [seqId_of_mem_receiveEffects mem]
        exact newUnrefused _ le_rfl
  | dispatched item seqEvent held currentEq nextSeqEq effectsEq =>
      rw [effectsEq]
      apply gate.append
      · intro effect mem
        exact isVerdict_of_mem_stageEffects item .dispatched
          (List.mem_append_right _ mem)
      · intro effect mem
        rw [seqId_of_mem_deliveries mem]
        exact tracked.refused_notMem held
  | @settled resolution _ item seqEvent held currentEq nextSeqLe below effectsEq =>
      rw [effectsEq]
      by_cases isAction : ∃ requester action,
          item.envelope.event.data = .actionRequested requester action
      · obtain ⟨requester, action, data⟩ := isAction
        have condition := gateHeld resolution item seqEvent requester action rfl held data
        simp only [settleEffects, data]
        split at condition
        · rename_i authorized
          rw [if_pos authorized]
          apply gate.authorize (tracked.refused_notMem held)
          intro plugin registered
          refine ⟨item.envelope.depth, (tracked.action_effects held data _ rfl).mpr (.inr ?_)⟩
          rcases condition with noPlugins | below
          · simp [noPlugins] at registered
          · exact mem_deliveries.mpr ⟨by simpa using below, plugin, registered, rfl⟩
        · rename_i refused
          rw [if_neg refused]
          apply gate.refuse
          intro effect mem about
          rcases (tracked.action_effects held data effect about).mp mem with stored | delivered
          · have kind := seqId_of_mem_storeEffects stored
            rw [kind] at stored
            exact (storeEffects_eq_nil_iff _).mpr condition.1 stored
          · obtain ⟨notDeep, plugin, registered, _⟩ := mem_deliveries.mp delivered
            rcases condition.2 with noPlugins | deep
            · simp [noPlugins] at registered
            · exact notDeep deep
      · apply gate.append
        · intro effect mem
          refine isVerdict_of_mem_settleEffects ?_ mem
          intro requester action data
          exact isAction ⟨requester, action, data⟩
        · intro effect mem
          rcases below effect mem with about | ⟨fresh, _⟩
          · rw [about]
            exact tracked.refused_notMem held
          · exact newUnrefused _ fresh

/-- The processor is done with the event of that sequence id. -/
structure Done (seqId : Nat) (state : State) : Prop where
  used : seqId < state.nextSeq
  released : ∀ item seqEvent stage, state.current = some ⟨item, seqEvent, stage⟩ →
    seqEvent.seqId ≠ seqId

/-- Once the processor is done with an event, nothing more is recorded about it. -/
theorem Done.step {seqId : Nat} (done : Done seqId state)
    (stepEq : step config state label = some next) :
    Done seqId next ∧ effectsOf next.effects seqId = effectsOf state.effects seqId := by
  cases progress_of_step stepEq with
  | around currentEq nextSeqEq effectsEq =>
      rw [effectsEq]
      refine ⟨⟨by rw [nextSeqEq]; exact done.used, ?_⟩, rfl⟩
      rw [currentEq]
      exact done.released
  | received item idle currentEq nextSeqEq effectsEq =>
      refine ⟨⟨by rw [nextSeqEq]; exact Nat.lt_succ_of_lt done.used, ?_⟩, ?_⟩
      · intro other seqEvent stage held
        rw [currentEq] at held
        cases held
        exact done.used.ne'
      · rw [effectsEq]
        apply effectsOf_append_apart
        intro effect mem
        rw [seqId_of_mem_receiveEffects mem]
        exact done.used.ne'
  | dispatched item seqEvent held currentEq nextSeqEq effectsEq =>
      refine ⟨⟨by rw [nextSeqEq]; exact done.used, ?_⟩, ?_⟩
      · intro other otherEvent stage otherHeld
        rw [currentEq] at otherHeld
        cases otherHeld
        exact done.released item seqEvent .recorded held
      · rw [effectsEq]
        apply effectsOf_append_apart
        intro effect mem
        rw [seqId_of_mem_deliveries mem]
        exact done.released item seqEvent .recorded held
  | settled item seqEvent held currentEq nextSeqLe below effectsEq =>
      refine ⟨⟨done.used.trans_le nextSeqLe, ?_⟩, ?_⟩
      · intro other otherEvent stage otherHeld
        rw [currentEq] at otherHeld
        cases otherHeld
      · rw [effectsEq]
        apply effectsOf_append_apart
        intro effect mem
        rcases below effect mem with about | ⟨fresh, _⟩
        · rw [about]
          exact done.released item seqEvent .dispatched held
        · exact (done.used.trans_le fresh).ne'

theorem Done.run {seqId : Nat} {target : State} {labels : List Label} (done : Done seqId state)
    (ran : run (Events.step config) state labels = some target) :
    effectsOf target.effects seqId = effectsOf state.effects seqId := by
  have kept := run_invariant
    (fun other => Done seqId other ∧
      effectsOf other.effects seqId = effectsOf state.effects seqId)
    (fun _ _ _ holds stepEq =>
      ⟨(holds.1.step stepEq).1, (holds.1.step stepEq).2.trans holds.2⟩)
    ⟨done, rfl⟩ ran
  exact kept.2

/-- An action settled on the way to a state that respects the gate was handled
the way the gate asks for. -/
theorem gateHeld_of_respected (tracked : Tracked config state)
    (stepEq : step config state label = some next) {target : State} {labels : List Label}
    (ran : run (step config) next labels = some target)
    (gate : GateRespected config target.effects) : GateHeld config state label := by
  rintro resolution item seqEvent requester action rfl held data
  have before := tracked.action_effects held data
  have nextTracked := tracked.step stepEq
  obtain ⟨other, otherEvent, otherHeld, rfl⟩ := settle_eq_some stepEq
  rw [held] at otherHeld
  cases otherHeld
  have effectsEq := effects_settleEvent config { state with current := none }
    ⟨item, seqEvent, .dispatched⟩ resolution
  have currentEq := current_settleEvent config { state with current := none }
    ⟨item, seqEvent, .dispatched⟩ resolution
  -- From here on the processor is done with the action.
  have done : Done seqEvent.seqId (settleEvent config { state with current := none }
      ⟨item, seqEvent, .dispatched⟩ resolution) := by
    constructor
    · exact (tracked.current item seqEvent .dispatched held).1.trans_le
        (nextSeq_le_settleEvent _ { state with current := none } _ _)
    · intro other otherEvent stage otherHeld
      rw [currentEq] at otherHeld
      cases otherHeld
  have final : ∀ effect, effect.seqId = seqEvent.seqId → (effect ∈ target.effects ↔
      effect ∈ state.effects ∨ effect ∈ settleEffects config state item.envelope seqEvent.seqId
        resolution.now) := by
    intro effect about
    rw [← mem_effectsOf about, done.run ran, mem_effectsOf about, effectsEq, List.mem_append]
    exact Iff.rfl
  simp only [settleEffects, data] at final
  split
  · rename_i authorized
    simp only [if_pos authorized] at final
    by_contra broken
    obtain ⟨somePlugin, deep⟩ := not_or.mp broken
    obtain ⟨plugin, registered⟩ := List.exists_mem_of_ne_nil _ somePlugin
    have inTarget := (final (.authorized seqEvent.seqId) rfl).mpr (.inr (by simp))
    obtain ⟨depth, delivered⟩ := gate.authorized seqEvent.seqId inTarget plugin registered
    rcases (final _ rfl).mp delivered with delivered | delivered
    · rcases (before _ rfl).mp delivered with stored | delivered
      · cases seqId_of_mem_storeEffects stored
      · exact (mem_deliveries.mp delivered).1 (by simpa using deep)
    · simp at delivered
  · rename_i refused
    simp only [if_neg refused] at final
    have inTarget := (final (.refused seqEvent.seqId) rfl).mpr (.inr (by simp))
    obtain ⟨notStored, _, notDelivered⟩ := gate.refused seqEvent.seqId inTarget
    constructor
    · rw [← storeEffects_eq_nil_iff seqEvent.seqId]
      intro stored
      exact notStored ((final _ rfl).mpr (.inl ((before _ rfl).mpr (.inl stored))))
    · by_contra broken
      obtain ⟨somePlugin, shallow⟩ := not_or.mp broken
      obtain ⟨plugin, registered⟩ := List.exists_mem_of_ne_nil _ somePlugin
      refine notDelivered plugin item.envelope.depth
        ((final _ rfl).mpr (.inl ((before _ rfl).mpr (.inr ?_))))
      exact mem_deliveries.mpr ⟨shallow, plugin, registered, rfl⟩

/-- An idle processor that has done nothing yet. -/
structure Starting (state : State) : Prop where
  idle : state.current = none
  unlogged : state.effects = []

theorem Starting.tracked (starting : Starting state) : Tracked config state where
  bounded := by simp [starting.unlogged]
  current := by simp [starting.idle]

/-- From a starting processor, a run respects the gate exactly when every action
it settles was handled the way the gate asks for. -/
theorem run_gateRespected_iff {start target : State} {labels : List Label}
    (starting : Starting start) (ran : run (step config) start labels = some target) :
    GateRespected config target.effects ↔ Along (step config) (GateHeld config) start labels := by
  constructor
  · intro gate
    have tracked : Tracked config start := starting.tracked
    clear starting
    induction labels generalizing start with
    | nil => trivial
    | cons label labels ih =>
        obtain ⟨middle, stepEq, rest⟩ := run_cons_eq_some_iff.mp ran
        refine ⟨gateHeld_of_respected tracked stepEq rest gate, ?_⟩
        intro other otherEq
        rw [stepEq] at otherEq
        cases otherEq
        exact ih rest (tracked.step stepEq)
  · intro along
    refine (run_invariant_along
      (fun state => Tracked config state ∧ GateRespected config state.effects)
      (fun _ _ _ holds gateHeld stepEq =>
        ⟨holds.1.step stepEq, holds.2.step holds.1 gateHeld stepEq⟩)
      ⟨starting.tracked, ?_⟩ along ran).2
    constructor <;> simp [starting.unlogged]

/-! ## A refused action reaches every plugin -/

/-- Every run of every kernel respects the gate. -/
def ActionGate : Prop :=
  ∀ (config : Config) (start target : State) (labels : List Label), Starting start →
    run (step config) start labels = some target → GateRespected config target.effects

/-- The kernel asks for an action of `plugin.hal`, which holds no permission. -/
def refusedRun : List Label :=
  [.inject ⟨7, .actionRequested (halConfig.fromName "plugin.hal") (.wait 1)⟩, .receive 0,
    .dispatch [], .settle sampleResolution]

theorem starting_freshState : Starting freshState :=
  ⟨rfl, rfl⟩

theorem exists_refusedRun : ∃ state,
    run (step halConfig) freshState refusedRun = some state ∧
      state.effects = [.stored 1, .delivered "plugin.hal" 1 0, .refused 1] :=
  ⟨_, rfl, by decide⟩

theorem not_actionGate : ¬ ActionGate := by
  intro gate
  obtain ⟨state, ran, effectsEq⟩ := exists_refusedRun
  have respected := gate halConfig freshState state refusedRun starting_freshState ran
  rw [effectsEq] at respected
  obtain ⟨notStored, _⟩ := respected.refused 1 (by simp)
  exact notStored (by simp)

theorem run_gateRespected_iff_refusedRun : ∃ state,
    run (step halConfig) freshState refusedRun = some state ∧
      (GateRespected halConfig state.effects ↔
        Along (step halConfig) (GateHeld halConfig) freshState refusedRun) := by
  obtain ⟨state, ran, _⟩ := exists_refusedRun
  exact ⟨state, ran, run_gateRespected_iff starting_freshState ran⟩

end ClotoCore.Events
