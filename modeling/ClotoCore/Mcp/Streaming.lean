import ClotoCore.Transition.Run
import Mathlib.Data.List.Range
import Mathlib.Order.MinMax

/-!
# Stream reassembly

The chunks of a streaming tool call are numbered from zero.  For each request the
assembler keeps the index it expects next and the indices below it that are
missing.  A chunk that runs ahead by more than a maximum passes over the indices
in between, which count as received from then on.  Nothing is kept of a stream
that is done or cancelled.
-/

namespace ClotoCore.Mcp.Streaming

open ClotoCore.Transition

/-- `u32::MAX` -/
def maxIndex : Nat := 4294967295

/-- `MAX_STREAM_GAP` -/
def maxStreamGap : Nat := 1024

/-- `saturating_add(1)` on a `u32`. -/
def saturatingSucc (index : Nat) : Nat :=
  min (index + 1) maxIndex

/-- `StreamTracker` -/
structure StreamTracker where
  expectedIndex : Nat
  receivedCount : Nat
  gaps : List Nat

/-- The tracker that the first chunk of a request opens. -/
def StreamTracker.opened : StreamTracker where
  expectedIndex := 0
  receivedCount := 0
  gaps := []

/-- `record_chunk` on the tracker of the request, with the gap it reports. -/
def StreamTracker.recordChunk (tracker : StreamTracker) (index : Nat) :
    StreamTracker × Option (List Nat) :=
  let counted := { tracker with receivedCount := saturatingSucc tracker.receivedCount }
  if index = tracker.expectedIndex then
    ({ counted with expectedIndex := saturatingSucc index }, none)
  else if maxStreamGap < index - tracker.expectedIndex then
    ({ counted with expectedIndex := saturatingSucc index }, none)
  else if index < tracker.expectedIndex then
    ({ counted with gaps := tracker.gaps.filter fun gap => gap != index }, none)
  else
    let gapIndices := List.range' tracker.expectedIndex (index - tracker.expectedIndex)
    ({ counted with
        gaps := tracker.gaps ++ gapIndices
        expectedIndex := saturatingSucc index }, some gapIndices)

/-- The index has been passed and is not missing. -/
def StreamTracker.isDuplicate (tracker : StreamTracker) (index : Nat) : Bool :=
  index < tracker.expectedIndex && !tracker.gaps.contains index

/-- A server and one of its requests. -/
abbrev StreamKey := String × Int

/-- The trackers of `StreamAssembler`. -/
abbrev StreamAssembler := StreamKey → Option StreamTracker

namespace StreamAssembler

/-- `record_chunk` -/
def recordChunk (assembler : StreamAssembler) (key : StreamKey) (index : Nat) :
    StreamAssembler × Option (List Nat) :=
  let recorded := ((assembler key).getD .opened).recordChunk index
  (fun other => if other = key then some recorded.1 else assembler other, recorded.2)

/-- `is_duplicate` -/
def isDuplicate (assembler : StreamAssembler) (key : StreamKey) (index : Nat) : Bool :=
  (assembler key).any fun tracker => tracker.isDuplicate index

/-- `remove` -/
def remove (assembler : StreamAssembler) (key : StreamKey) : StreamAssembler :=
  fun other => if other = key then none else assembler other

/-- `handle_stream_chunk`, with the gap whose retransmission it requests. -/
def handleStreamChunk (assembler : StreamAssembler) (key : StreamKey) (index : Nat)
    (done : Bool) : StreamAssembler × Option (List Nat) :=
  if assembler.isDuplicate key index then (assembler, none)
  else
    let recorded := assembler.recordChunk key index
    (if done then recorded.1.remove key else recorded.1, recorded.2)

/-- The indices that are missing of a request. -/
def gaps (assembler : StreamAssembler) (key : StreamKey) : List Nat :=
  ((assembler key).map StreamTracker.gaps).getD []

end StreamAssembler

/-- The assembler, and the chunks that it recorded of each request since the stream
was opened, the last one first.  No step reads the record. -/
structure State where
  assembler : StreamAssembler
  recorded : StreamKey → List Nat

/-- No streams, and nothing recorded. -/
def State.init : State where
  assembler := fun _ => none
  recorded := fun _ => []

/-- A chunk notification, or the `remove` of a cancelled request. -/
inductive Label where
  | chunk (key : StreamKey) (index : UInt32) (done : Bool)
  | remove (key : StreamKey)

/-- What is recorded of a request after a chunk of it. -/
def recordedAfter (state : State) (key : StreamKey) (index : Nat) (done : Bool) : List Nat :=
  if state.assembler.isDuplicate key index then state.recorded key
  else if done then [] else index :: state.recorded key

/-- One step of the assembler. -/
def step : Action State Label
  | state, .chunk key index done =>
      some
        { assembler := (state.assembler.handleStreamChunk key index.toNat done).1
          recorded := fun other =>
            if other = key then recordedAfter state key index.toNat done
            else state.recorded other }
  | state, .remove key =>
      some
        { assembler := state.assembler.remove key
          recorded := fun other => if other = key then [] else state.recorded other }

/-! ## What the recorded chunks say -/

/-- The index after the highest one. -/
def nextAfter : List Nat → Nat
  | [] => 0
  | index :: earlier => max (saturatingSucc index) (nextAfter earlier)

/-- The chunk runs ahead of those recorded before by more than the maximum. -/
def RunsAhead (earlier : List Nat) (index : Nat) : Prop :=
  maxStreamGap < index - nextAfter earlier

/-- The index was passed over by a chunk that ran ahead. -/
def PassedOver : List Nat → Nat → Prop
  | [], _ => False
  | index :: earlier, passed =>
      PassedOver earlier passed ∨
        RunsAhead earlier index ∧ nextAfter earlier ≤ passed ∧ passed < index

/-- What the assembler holds of a request is what the chunks recorded of it say. -/
structure Reassembled (state : State) (key : StreamKey) : Prop where
  duplicate : ∀ index, index < maxIndex →
    (state.assembler.isDuplicate key index = true ↔
      index ∈ state.recorded key ∨ PassedOver (state.recorded key) index)
  gaps : ∀ index, index ∈ state.assembler.gaps key ↔
    (∃ later ∈ state.recorded key, index < later) ∧ index ∉ state.recorded key ∧
      ¬ PassedOver (state.recorded key) index
  reported : ∀ (chunk : UInt32) (done : Bool) (index : Nat),
    index ∈ (state.assembler.handleStreamChunk key chunk.toNat done).2.getD [] ↔
      (∀ earlier ∈ state.recorded key, earlier < index) ∧ index < chunk.toNat ∧
        ¬ RunsAhead (state.recorded key) chunk.toNat
  bounded : ∀ (chunk : UInt32) (done : Bool) missing,
    (state.assembler.handleStreamChunk key chunk.toNat done).2 = some missing →
      missing.length ≤ maxStreamGap
  completed : ∀ chunk : UInt32, state.assembler.isDuplicate key chunk.toNat = false →
    (state.assembler.handleStreamChunk key chunk.toNat true).1 key = none
  absent : state.assembler key = none ↔ state.recorded key = []

/-! ## A tracker and the record -/

variable {tracker : StreamTracker} {recorded : List Nat} {index : Nat}

theorem lt_nextAfter_iff :
    index < nextAfter recorded ↔ ∃ later ∈ recorded, index ≤ later ∧ index < maxIndex := by
  induction recorded with
  | nil => simp [nextAfter]
  | cons first earlier ih =>
      simp only [nextAfter, saturatingSucc, List.mem_cons, exists_eq_or_imp]
      rw [lt_max_iff, ih, Nat.lt_min, Nat.lt_succ_iff]

theorem PassedOver.lt_nextAfter (within : ∀ later ∈ recorded, later ≤ maxIndex)
    (passed : PassedOver recorded index) : index < nextAfter recorded := by
  induction recorded with
  | nil => cases passed
  | cons first earlier ih =>
      rcases passed with before | ⟨-, -, below⟩
      · have inEarlier := ih (fun later mem => within later (List.mem_cons_of_mem _ mem)) before
        exact lt_max_iff.mpr (Or.inr inEarlier)
      · have top := within first List.mem_cons_self
        exact lt_nextAfter_iff.mpr
          ⟨first, List.mem_cons_self, Nat.le_of_lt below, Nat.lt_of_lt_of_le below top⟩

/-- A tracker says what is recorded: the index after the highest one, and those
below it that are missing. -/
structure Tracks (tracker : StreamTracker) (recorded : List Nat) : Prop where
  expected : tracker.expectedIndex = nextAfter recorded
  missing : ∀ index, index ∈ tracker.gaps ↔
    index < nextAfter recorded ∧ index ∉ recorded ∧ ¬ PassedOver recorded index
  within : ∀ index ∈ recorded, index ≤ maxIndex

theorem tracks_opened : Tracks .opened [] := by
  constructor
  · rfl
  · intro index
    simp [StreamTracker.opened, nextAfter]
  · intro index mem
    cases mem

/-- The index expected next does not fall behind the chunk just recorded. -/
theorem nextAfter_cons_of_le (ahead : nextAfter recorded ≤ index) (within : index ≤ maxIndex) :
    nextAfter (index :: recorded) = saturatingSucc index := by
  apply Nat.max_eq_left
  apply Nat.le_min.mpr
  exact ⟨Nat.le_succ_of_le ahead, Nat.le_trans ahead within⟩

theorem nextAfter_cons_of_lt (behind : index < nextAfter recorded) :
    nextAfter (index :: recorded) = nextAfter recorded := by
  apply Nat.max_eq_right
  exact Nat.le_trans (Nat.min_le_left _ _) behind

/-- A chunk at or ahead of the expected index leaves missing what was, and what is
in between unless it runs ahead. -/
theorem missing_cons_of_le (tracks : Tracks tracker recorded)
    (ahead : nextAfter recorded ≤ index) (within : index ≤ maxIndex) (other : Nat) :
    (other < nextAfter (index :: recorded) ∧ other ∉ index :: recorded ∧
        ¬ PassedOver (index :: recorded) other) ↔
      other ∈ tracker.gaps ∨
        ¬ RunsAhead recorded index ∧ nextAfter recorded ≤ other ∧ other < index := by
  rw [tracks.missing, nextAfter_cons_of_le ahead within]
  simp only [saturatingSucc, Nat.lt_min, List.mem_cons, PassedOver, not_or, not_and]
  constructor
  · rintro ⟨⟨below, -⟩, ⟨distinct, absent⟩, notBefore, notNow⟩
    by_cases early : other < nextAfter recorded
    · exact Or.inl ⟨early, absent, notBefore⟩
    · right
      refine ⟨fun runs => ?_, by omega, by omega⟩
      exact notNow runs (by omega) (by omega)
  · rintro (⟨early, absent, notBefore⟩ | ⟨stays, late, below⟩)
    · refine ⟨by omega, ⟨by omega, absent⟩, notBefore, ?_⟩
      intro _ late
      omega
    · refine ⟨by omega, ⟨by omega, ?_⟩, ?_, fun runs => absurd runs stays⟩
      · intro mem
        have here := lt_nextAfter_iff.mpr ⟨other, mem, Nat.le_refl _, by omega⟩
        omega
      · intro passed
        have here := passed.lt_nextAfter tracks.within
        omega

/-- A late chunk is no longer missing. -/
theorem missing_cons_of_lt (tracks : Tracks tracker recorded)
    (behind : index < nextAfter recorded) (other : Nat) :
    (other < nextAfter (index :: recorded) ∧ other ∉ index :: recorded ∧
        ¬ PassedOver (index :: recorded) other) ↔
      other ∈ tracker.gaps ∧ other ≠ index := by
  have notAhead : ¬ RunsAhead recorded index := by
    unfold RunsAhead
    omega
  rw [tracks.missing, nextAfter_cons_of_lt behind]
  simp only [List.mem_cons, PassedOver, notAhead, false_and, or_false, not_or]
  constructor
  · rintro ⟨below, ⟨distinct, absent⟩, notBefore⟩
    exact ⟨⟨below, absent, notBefore⟩, distinct⟩
  · rintro ⟨⟨below, absent, notBefore⟩, distinct⟩
    exact ⟨below, ⟨distinct, absent⟩, notBefore⟩

theorem Tracks.within_cons (tracks : Tracks tracker recorded) (within : index ≤ maxIndex) :
    ∀ other ∈ index :: recorded, other ≤ maxIndex := by
  intro other mem
  rcases List.mem_cons.mp mem with rfl | earlier
  · exact within
  · exact tracks.within other earlier

/-- Recording a chunk keeps the tracker and the record together. -/
theorem Tracks.recordChunk (tracks : Tracks tracker recorded) (within : index ≤ maxIndex) :
    Tracks (tracker.recordChunk index).1 (index :: recorded) := by
  have expected := tracks.expected
  simp only [StreamTracker.recordChunk]
  by_cases inOrder : index = tracker.expectedIndex
  · have ahead : nextAfter recorded ≤ index := by omega
    have inPlace : ∀ other, ¬ (nextAfter recorded ≤ other ∧ other < index) := by
      intro other
      omega
    rw [if_pos inOrder]
    refine ⟨(nextAfter_cons_of_le ahead within).symm, ?_, tracks.within_cons within⟩
    intro other
    simp only [missing_cons_of_le tracks ahead within, inPlace, and_false, or_false]
  rw [if_neg inOrder]
  by_cases runs : maxStreamGap < index - tracker.expectedIndex
  · have ahead : nextAfter recorded ≤ index := by omega
    have runsAhead : RunsAhead recorded index := by
      unfold RunsAhead
      omega
    rw [if_pos runs]
    refine ⟨(nextAfter_cons_of_le ahead within).symm, ?_, tracks.within_cons within⟩
    intro other
    simp only [missing_cons_of_le tracks ahead within, runsAhead, not_true_eq_false, false_and,
      or_false]
  rw [if_neg runs]
  by_cases late : index < tracker.expectedIndex
  · have behind : index < nextAfter recorded := by omega
    rw [if_pos late]
    refine ⟨expected.trans (nextAfter_cons_of_lt behind).symm, ?_, tracks.within_cons within⟩
    intro other
    rw [missing_cons_of_lt tracks behind]
    simp
  · have ahead : nextAfter recorded ≤ index := by omega
    have stays : ¬ RunsAhead recorded index := by
      unfold RunsAhead
      omega
    rw [if_neg late]
    refine ⟨(nextAfter_cons_of_le ahead within).symm, ?_, tracks.within_cons within⟩
    intro other
    have between : (tracker.expectedIndex ≤ other ∧
        other < tracker.expectedIndex + (index - tracker.expectedIndex)) ↔
          nextAfter recorded ≤ other ∧ other < index := by omega
    simp only [missing_cons_of_le tracks ahead within, stays, not_false_eq_true, true_and,
      List.mem_append, List.mem_range'_1, between]

/-- A chunk reports what is between the expected index and itself, unless it runs
ahead. -/
theorem Tracks.mem_reported_iff (tracks : Tracks tracker recorded) (other : Nat) :
    other ∈ (tracker.recordChunk index).2.getD [] ↔
      nextAfter recorded ≤ other ∧ other < index ∧ ¬ RunsAhead recorded index := by
  have expected := tracks.expected
  simp only [StreamTracker.recordChunk, RunsAhead]
  by_cases inOrder : index = tracker.expectedIndex
  · simp only [if_pos inOrder, Option.getD_none, List.not_mem_nil, false_iff]
    omega
  by_cases runs : maxStreamGap < index - tracker.expectedIndex
  · simp only [if_neg inOrder, if_pos runs, Option.getD_none, List.not_mem_nil, false_iff]
    omega
  by_cases late : index < tracker.expectedIndex
  · simp only [if_neg inOrder, if_neg runs, if_pos late, Option.getD_none, List.not_mem_nil,
      false_iff]
    omega
  · simp only [if_neg inOrder, if_neg runs, if_neg late, Option.getD_some, List.mem_range'_1]
    omega

theorem length_reported_le {missing : List Nat}
    (reported : (tracker.recordChunk index).2 = some missing) :
    missing.length ≤ maxStreamGap := by
  simp only [StreamTracker.recordChunk] at reported
  by_cases inOrder : index = tracker.expectedIndex
  · rw [if_pos inOrder] at reported
    cases reported
  by_cases runs : maxStreamGap < index - tracker.expectedIndex
  · rw [if_neg inOrder, if_pos runs] at reported
    cases reported
  by_cases late : index < tracker.expectedIndex
  · rw [if_neg inOrder, if_neg runs, if_pos late] at reported
    cases reported
  · rw [if_neg inOrder, if_neg runs, if_neg late] at reported
    cases reported
    rw [List.length_range']
    omega

theorem Tracks.isDuplicate_iff (tracks : Tracks tracker recorded) :
    tracker.isDuplicate index = true ↔
      index < nextAfter recorded ∧ (index ∈ recorded ∨ PassedOver recorded index) := by
  have missing := tracks.missing index
  rw [StreamTracker.isDuplicate, tracks.expected, Bool.and_eq_true, decide_eq_true_eq,
    Bool.not_eq_true', List.contains_eq_mem, decide_eq_false_iff_not, missing]
  by_cases below : index < nextAfter recorded
  · simp only [below, true_and, not_and, not_not]
    constructor
    · intro implied
      by_cases here : index ∈ recorded
      · exact Or.inl here
      · exact Or.inr (implied here)
    · rintro (here | passed) absent
      · exact absurd here absent
      · exact passed
  · simp only [below, false_and]

theorem Tracks.duplicate_iff (tracks : Tracks tracker recorded) (below : index < maxIndex) :
    tracker.isDuplicate index = true ↔ index ∈ recorded ∨ PassedOver recorded index := by
  rw [tracks.isDuplicate_iff]
  constructor
  · exact And.right
  · intro received
    refine ⟨?_, received⟩
    rcases received with here | passed
    · exact lt_nextAfter_iff.mpr ⟨index, here, Nat.le_refl _, below⟩
    · exact passed.lt_nextAfter tracks.within

/-- What is missing is below the highest chunk. -/
theorem Tracks.missing_iff (tracks : Tracks tracker recorded) :
    index ∈ tracker.gaps ↔ (∃ later ∈ recorded, index < later) ∧ index ∉ recorded ∧
      ¬ PassedOver recorded index := by
  rw [tracks.missing, lt_nextAfter_iff]
  constructor
  · rintro ⟨⟨later, mem, le, -⟩, absent, notPassed⟩
    refine ⟨⟨later, mem, Nat.lt_of_le_of_ne le ?_⟩, absent, notPassed⟩
    rintro rfl
    exact absent mem
  · rintro ⟨⟨later, mem, lt⟩, absent, notPassed⟩
    have top := tracks.within later mem
    exact ⟨⟨later, mem, Nat.le_of_lt lt, Nat.lt_of_lt_of_le lt top⟩, absent, notPassed⟩

/-! ## The assembler over a run -/

variable {state next : State} {label : Label} {key other : StreamKey}

/-- Every request is tracked by its record, and only where there is one. -/
structure Tracked (state : State) (key : StreamKey) : Prop where
  tracks : Tracks ((state.assembler key).getD .opened) (state.recorded key)
  absent : state.assembler key = none ↔ state.recorded key = []

theorem tracked_init (key : StreamKey) : Tracked .init key where
  tracks := tracks_opened
  absent := by simp [State.init]

/-- A request of which nothing is kept. -/
theorem tracked_of_none (none : state.assembler key = none) (nil : state.recorded key = []) :
    Tracked state key where
  tracks := by
    rw [none, nil]
    exact tracks_opened
  absent := by simp [none, nil]

theorem toNat_le_maxIndex (index : UInt32) : index.toNat ≤ maxIndex :=
  Nat.le_of_lt_succ index.toNat_lt

theorem isDuplicate_iff_getD {index : Nat} :
    state.assembler.isDuplicate key index = true ↔
      ((state.assembler key).getD .opened).isDuplicate index = true := by
  unfold StreamAssembler.isDuplicate
  cases held : state.assembler key with
  | none => simp [StreamTracker.isDuplicate, StreamTracker.opened]
  | some tracker => simp

theorem handleStreamChunk_other (assembler : StreamAssembler) (index : Nat) (done : Bool)
    (distinct : other ≠ key) :
    (assembler.handleStreamChunk key index done).1 other = assembler other := by
  unfold StreamAssembler.handleStreamChunk
  split
  · rfl
  · cases done <;> simp [StreamAssembler.recordChunk, StreamAssembler.remove, distinct]

theorem Tracked.step (tracked : ∀ key, Tracked state key)
    (stepEq : step state label = some next) (key : StreamKey) : Tracked next key := by
  cases label with
  | chunk target index done =>
      cases stepEq
      by_cases same : key = target
      · subst same
        have before := tracked key
        by_cases duplicate : state.assembler.isDuplicate key index.toNat = true
        · constructor
          · simpa [StreamAssembler.handleStreamChunk, recordedAfter, duplicate] using before.tracks
          · simpa [StreamAssembler.handleStreamChunk, recordedAfter, duplicate] using before.absent
        · cases done with
          | true =>
              apply tracked_of_none
              · simp [StreamAssembler.handleStreamChunk, StreamAssembler.remove, duplicate]
              · simp [recordedAfter, duplicate]
          | false =>
              have after := before.tracks.recordChunk (toNat_le_maxIndex index)
              constructor
              · simpa [StreamAssembler.handleStreamChunk, StreamAssembler.recordChunk,
                  recordedAfter, duplicate] using after
              · simp [StreamAssembler.handleStreamChunk, StreamAssembler.recordChunk,
                  recordedAfter, duplicate]
      · have before := tracked key
        constructor
        · simpa [handleStreamChunk_other _ _ _ same, same] using before.tracks
        · simpa [handleStreamChunk_other _ _ _ same, same] using before.absent
  | remove target =>
      cases stepEq
      by_cases same : key = target
      · apply tracked_of_none
        · simp [StreamAssembler.remove, same]
        · simp [same]
      · have before := tracked key
        constructor
        · simpa [StreamAssembler.remove, same] using before.tracks
        · simpa [StreamAssembler.remove, same] using before.absent

theorem Tracked.mem_handled_iff (tracked : Tracked state key) (chunk : UInt32) (done : Bool)
    (index : Nat) :
    index ∈ (state.assembler.handleStreamChunk key chunk.toNat done).2.getD [] ↔
      nextAfter (state.recorded key) ≤ index ∧ index < chunk.toNat ∧
        ¬ RunsAhead (state.recorded key) chunk.toNat := by
  unfold StreamAssembler.handleStreamChunk
  by_cases duplicate : state.assembler.isDuplicate key chunk.toNat = true
  · have below := (tracked.tracks.isDuplicate_iff.mp (isDuplicate_iff_getD.mp duplicate)).1
    simp only [duplicate, if_true, Option.getD_none, List.not_mem_nil, false_iff]
    omega
  · rw [if_neg duplicate]
    exact tracked.tracks.mem_reported_iff index

/-- Everything recorded is before an index exactly if the next index is not beyond it. -/
theorem nextAfter_le_iff {chunk : UInt32} (below : index < chunk.toNat) :
    nextAfter recorded ≤ index ↔ ∀ earlier ∈ recorded, earlier < index := by
  have top := toNat_le_maxIndex chunk
  rw [← Nat.not_lt, lt_nextAfter_iff]
  constructor
  · intro noneBeyond earlier mem
    by_contra notBefore
    exact noneBeyond ⟨earlier, mem, by omega, by omega⟩
  · rintro allBefore ⟨later, mem, le, -⟩
    have before := allBefore later mem
    omega

theorem Tracked.reassembled (tracked : Tracked state key) : Reassembled state key where
  duplicate := by
    intro index below
    rw [isDuplicate_iff_getD]
    exact tracked.tracks.duplicate_iff below
  gaps := by
    intro index
    have same : state.assembler.gaps key = ((state.assembler key).getD .opened).gaps := by
      unfold StreamAssembler.gaps
      cases state.assembler key <;> rfl
    rw [same]
    exact tracked.tracks.missing_iff
  reported := by
    intro chunk done index
    rw [tracked.mem_handled_iff]
    constructor
    · rintro ⟨ahead, below, stays⟩
      exact ⟨(nextAfter_le_iff below).mp ahead, below, stays⟩
    · rintro ⟨before, below, stays⟩
      exact ⟨(nextAfter_le_iff below).mpr before, below, stays⟩
  bounded := by
    intro chunk done missing handled
    unfold StreamAssembler.handleStreamChunk at handled
    split at handled
    · cases handled
    · exact length_reported_le handled
  completed := by
    intro chunk fresh
    simp [StreamAssembler.handleStreamChunk, StreamAssembler.remove, fresh]
  absent := tracked.absent

/-- Whatever the order of the chunks, the assembler holds of every request what the
chunks recorded of it say. -/
theorem reassembled_of_run {labels : List Label} {target : State}
    (ran : run step .init labels = some target) (key : StreamKey) : Reassembled target key := by
  have tracked : ∀ key, Tracked target key := by
    apply run_invariant (fun state => ∀ key, Tracked state key) _ tracked_init ran
    intro state label next held stepEq
    exact Tracked.step held stepEq
  exact (tracked key).reassembled

theorem reassembled_with_gap :
    ∃ target,
      run step .init [.chunk ("s1", 1) 0 false, .chunk ("s1", 1) 3 false,
        .chunk ("s1", 1) 1 false] = some target ∧ Reassembled target ("s1", 1) := by
  obtain ⟨target, ran⟩ : ∃ target,
      run step .init [.chunk ("s1", 1) 0 false, .chunk ("s1", 1) 3 false,
        .chunk ("s1", 1) 1 false] = some target := ⟨_, rfl⟩
  exact ⟨target, ran, reassembled_of_run ran ("s1", 1)⟩

/-- After chunks 0 and 3 chunk 4 reports nothing although 1 and 2 are missing, chunk
1026 makes chunk 5 a duplicate that was never sent, and a chunk sent again after
the last one opens a stream. -/
theorem reassembly_not_literal :
    (∃ target, run step .init [.chunk ("s1", 1) 0 false, .chunk ("s1", 1) 3 false] = some target ∧
      (target.assembler.handleStreamChunk ("s1", 1) 4 false).2 = none ∧
        target.assembler.gaps ("s1", 1) = [1, 2]) ∧
      (∃ target, run step .init [.chunk ("s1", 1) 1026 false] = some target ∧
        target.assembler.isDuplicate ("s1", 1) 5 = true) ∧
          ∃ target, run step .init [.chunk ("s1", 1) 0 false, .chunk ("s1", 1) 1 true] =
              some target ∧ target.assembler ("s1", 1) = none ∧
            ((target.assembler.handleStreamChunk ("s1", 1) 0 false).1 ("s1", 1)).isSome = true := by
  refine ⟨⟨_, rfl, ?_, ?_⟩, ⟨_, rfl, ?_⟩, ⟨_, rfl, ?_, ?_⟩⟩ <;> decide +kernel

end ClotoCore.Mcp.Streaming
