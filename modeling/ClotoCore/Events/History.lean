import ClotoCore.Events.Bus
import ClotoCore.Sequence.Numbered

/-!
# The event history

Every event is recorded at the back of the history, and the oldest recorded ones
leave from the front.  A periodic cleanup drops events from the front as long as
they carry a time before the retention cutoff.  Times do not follow the order of
recording, so a cleanup stops at the first event that is not old, and an old one
behind it stays.
-/

namespace ClotoCore.Events.History

open ClotoCore.Sequence ClotoCore.Transition

/-- A `SequencedEvent` with the time its event carries, in nanoseconds. -/
structure TimedEvent where
  seqEvent : SequencedEvent
  timestamp : Int

/-- The settings of the `EventProcessor` that the history depends on. -/
structure Config where
  maxHistorySize : Nat
  eventRetentionHours : Nat
  maxEventHistory : Nat

/-- The history and all that was ever recorded.  `cleaned` is the cutoff of a
cleanup after which nothing was recorded.  No step reads the other two. -/
structure State where
  recorded : List TimedEvent
  history : List TimedEvent
  cleaned : Option Int

/-- No events yet. -/
def State.init : State where
  recorded := []
  history := []
  cleaned := none

/-- One access to the history. -/
inductive Label where
  | record (event : TimedEvent)
  | cleanup (now : Int)

/-- `record_event` -/
def recordEvent (config : Config) (history : List TimedEvent) (event : TimedEvent) :
    List TimedEvent :=
  lastItems config.maxHistorySize (history ++ [event])

/-- The time of `cleanup_old_events` before which events are old. -/
def cutoff (config : Config) (now : Int) : Int :=
  now - config.eventRetentionHours * 3600000000000

/-- `cleanup_old_events`: old events leave from the front, and then all beyond the
count cap. -/
def cleanupOldEvents (config : Config) (history : List TimedEvent) (now : Int) :
    List TimedEvent :=
  lastItems config.maxEventHistory
    (history.dropWhile fun oldest => oldest.timestamp < cutoff config now)

/-- One step of the history. -/
def step (config : Config) : Action State Label
  | state, .record event =>
      some
        { recorded := state.recorded ++ [event]
          history := recordEvent config state.history event
          cleaned := none }
  | state, .cleanup now =>
      some
        { state with
          history := cleanupOldEvents config state.history now
          cleaned := some (cutoff config now) }

/-- The history is an end of what was recorded, within the capacity. -/
structure Contiguous (config : Config) (state : State) : Prop where
  suffix : state.history <:+ state.recorded
  bounded : state.history.length ≤ config.maxHistorySize

/-- The history is a window on what was recorded: no event is older than the cutoff
of a cleanup that was just made. -/
structure Windowed (config : Config) (state : State) : Prop extends Contiguous config state where
  retained : ∀ cutoff, state.cleaned = some cutoff →
    ∀ event ∈ state.history, cutoff ≤ event.timestamp

/-- A cleanup comes when every old event that the count cap leaves stands behind
old ones only. -/
def OldInFront (config : Config) (state : State) : Label → Prop
  | .record _ => True
  | .cleanup now =>
      ∀ before event after, state.history = before ++ event :: after →
        after.length < config.maxEventHistory → event.timestamp < cutoff config now →
          ∀ other ∈ before, other.timestamp < cutoff config now

variable {config : Config} {state next : State} {label : Label}

theorem contiguous_init : Contiguous config .init where
  suffix := List.suffix_refl []
  bounded := Nat.zero_le _

theorem windowed_init : Windowed config .init where
  toContiguous := contiguous_init
  retained := by
    intro cutoff cleaned
    cases cleaned

/-! ## The history of the event bus -/

/-- Recording on the event bus is recording here, the times left out. -/
theorem seqEvents_recordEvent (bus : Events.Config) (busState : Events.State)
    {history : List TimedEvent} (event : TimedEvent)
    (same : history.map TimedEvent.seqEvent = busState.history)
    (cap : config.maxHistorySize = bus.maxHistorySize) :
    (recordEvent config history event).map TimedEvent.seqEvent =
      (busState.recordEvent bus event.seqEvent).history := by
  simp only [recordEvent, Events.State.recordEvent, lastItems, List.map_drop, List.map_append,
    List.map_singleton, List.length_append, List.length_singleton, ← same, List.length_map, cap]

/-- A cleanup drops some events from the front, as it does on the event bus. -/
theorem cleanupOldEvents_eq_drop (config : Config) (history : List TimedEvent) (now : Int) :
    ∃ count, cleanupOldEvents config history now = history.drop count := by
  have suffix : cleanupOldEvents config history now <:+ history :=
    (List.drop_suffix _ _).trans (List.dropWhile_suffix _)
  exact ⟨_, List.suffix_iff_eq_drop.mp suffix⟩

/-! ## A window on what was recorded -/

/-- Whatever the times, the history stays a bounded end of what was recorded. -/
theorem Contiguous.step (contiguous : Contiguous config state)
    (stepEq : step config state label = some next) : Contiguous config next := by
  cases label with
  | record event =>
      cases stepEq
      constructor
      · rcases contiguous.suffix with ⟨front, split⟩
        apply (List.drop_suffix _ _).trans
        refine ⟨front, ?_⟩
        rw [← List.append_assoc, split]
      · exact length_lastItems_le config.maxHistorySize
  | cleanup now =>
      cases stepEq
      rcases cleanupOldEvents_eq_drop config state.history now with ⟨count, dropped⟩
      constructor
      · show cleanupOldEvents config state.history now <:+ state.recorded
        rw [dropped]
        exact (List.drop_suffix _ _).trans contiguous.suffix
      · show (cleanupOldEvents config state.history now).length ≤ config.maxHistorySize
        rw [dropped, List.length_drop]
        exact Nat.le_trans (Nat.sub_le _ _) contiguous.bounded

/-- After a cleanup no old event is left exactly if those that the cap leaves were
in front. -/
theorem cleanupOldEvents_retained_iff (now : Int) :
    (∀ event ∈ cleanupOldEvents config state.history now,
        cutoff config now ≤ event.timestamp) ↔
      OldInFront config state (.cleanup now) := by
  have exact := lastItems_dropWhile_iff state.history config.maxEventHistory
    fun oldest => decide (oldest.timestamp < cutoff config now)
  simp only [decide_eq_false_iff_not, Int.not_lt, decide_eq_true_eq] at exact
  exact exact

theorem Windowed.step_iff (windowed : Windowed config state)
    (stepEq : step config state label = some next) :
    Windowed config next ↔ OldInFront config state label := by
  have contiguous := windowed.toContiguous.step stepEq
  cases label with
  | record event =>
      cases stepEq
      constructor
      · intro
        trivial
      · intro
        constructor
        · exact contiguous
        · intro cutoff cleaned
          cases cleaned
  | cleanup now =>
      cases stepEq
      constructor
      · intro nextWindowed
        exact (cleanupOldEvents_retained_iff now).mp (nextWindowed.retained _ rfl)
      · intro oldInFront
        constructor
        · exact contiguous
        · intro cutoff cleaned
          cases cleaned
          exact (cleanupOldEvents_retained_iff now).mpr oldInFront

/-- Throughout a run the history is a contiguous and bounded end of what was
recorded, and free of old events after each cleanup, exactly if no cleanup finds an
old event behind one that is not. -/
theorem windowed_throughout_iff {labels : List Label} {target : State}
    (ran : run (step config) .init labels = some target) :
    (∀ count middle, run (step config) .init (labels.take count) = some middle →
        Windowed config middle) ↔
      Along (step config) (OldInFront config) .init labels := by
  apply throughout_iff_along _ windowed_init ran
  intro state label next windowed stepEq
  exact windowed.step_iff stepEq

/-- An event of the given number and time. -/
def timed (seqId : Nat) (timestamp : Int) : TimedEvent where
  seqEvent := ⟨seqId, ⟨0, .other "SystemNotification"⟩⟩
  timestamp := timestamp

/-- Up to three events, kept for one hour. -/
def hourly : Config where
  maxHistorySize := 3
  eventRetentionHours := 1
  maxEventHistory := 100

/-- An event from before the cutoff and one from behind it are recorded, and a cleanup
keeps the second alone. -/
def orderlyRun : List Label :=
  [.record (timed 1 5), .record (timed 2 7), .cleanup 3600000000006]

/-- The old event stands in front of the fresh one. -/
theorem along_orderlyRun : Along (step hourly) (OldInFront hourly) .init orderlyRun := by
  constructor
  · trivial
  · intro next stepEq
    cases stepEq
    constructor
    · trivial
    · intro next stepEq
      cases stepEq
      constructor
      · intro before event after split _ old other mem
        have two : [timed 1 5, timed 2 7] = before ++ event :: after := split
        -- An event with another one before it is the fresh one, which is not old.
        rcases before with _ | ⟨first, _ | ⟨second, rest⟩⟩
        · cases mem
        · simp only [List.cons_append, List.nil_append, List.cons.injEq] at two
          rw [← two.2.1] at old
          exact absurd old (by decide)
        · have lengths := congrArg List.length two
          simp at lengths
      · intros
        trivial

theorem windowed_in_order :
    ∃ target, run (step hourly) .init orderlyRun = some target ∧
      target.history = [timed 2 7] ∧ Windowed hourly target := by
  have ran : run (step hourly) .init orderlyRun = some _ := rfl
  refine ⟨_, ran, ?_, (windowed_throughout_iff ran).mpr along_orderlyRun 3 _ ran⟩
  simp [cleanupOldEvents, recordEvent, cutoff, hourly, timed, lastItems, State.init]

/-- An event that carries an earlier time than the one recorded before it outlives
the cutoff behind it. -/
theorem old_event_behind_fresh :
    ¬ ∀ (config : Config) (labels : List Label) (target : State),
      run (step config) .init labels = some target → Windowed config target := by
  intro always
  have ran : run (step hourly) .init
        [.record (timed 1 2), .record (timed 2 1), .cleanup 3600000000002] =
      some ⟨[timed 1 2, timed 2 1],
        cleanupOldEvents hourly [timed 1 2, timed 2 1] 3600000000002,
        some (cutoff hourly 3600000000002)⟩ :=
    rfl
  have kept : timed 2 1 ∈ cleanupOldEvents hourly [timed 1 2, timed 2 1] 3600000000002 := by
    simp [cleanupOldEvents, cutoff, hourly, timed, lastItems]
  have retained := (always _ _ _ ran).retained
  dsimp only at retained
  have late := retained (cutoff hourly 3600000000002) rfl (timed 2 1) kept
  simp [cutoff, hourly, timed] at late

end ClotoCore.Events.History
