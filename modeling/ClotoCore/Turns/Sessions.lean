import ClotoCore.Transition.Run
import Mathlib.Data.List.Induction

/-!
# Sessions in memory

A session keeps the messages of a conversation, and its tier follows from the time
since its last message.  A cleanup that runs now and then evicts the sessions that
are cold.  Until it runs, a cold session is still there to be read and appended to,
so what a reader sees can depend on when it ran.

The tool history of a session, which no reader of its messages or its tier sees, is
left out.
-/

namespace ClotoCore.Turns

open ClotoCore.Transition

namespace Sessions

universe u

variable {μ : Type u}

/-- `SessionKey` -/
structure SessionKey where
  agentId : String
  bridgeSessionId : String
  deriving DecidableEq

/-- `SessionTier` -/
inductive SessionTier where
  | hotActive
  | hotStashed
  | warm
  | cold
  deriving DecidableEq

/-- The policy of a `SessionManager`, in the unit of the clock. -/
structure Policy where
  hotGap : Nat
  stashTtl : Nat
  warmTtl : Nat

/-- `from_elapsed` -/
def SessionTier.fromElapsed (policy : Policy) (elapsed : Nat) : SessionTier :=
  if elapsed ≤ policy.hotGap then .hotActive
  else if elapsed ≤ policy.hotGap + policy.stashTtl then .hotStashed
  else if elapsed ≤ policy.warmTtl then .warm
  else .cold

/-- `AgentSession` -/
structure AgentSession (μ : Type u) where
  transcript : List μ
  lastActive : Nat

/-- `tier` -/
def AgentSession.tier (policy : Policy) (session : AgentSession μ) (now : Nat) : SessionTier :=
  .fromElapsed policy (now - session.lastActive)

/-- `append` -/
def AgentSession.append (session : AgentSession μ) (message : μ) (now : Nat) :
    AgentSession μ where
  transcript := session.transcript ++ [message]
  lastActive := now

/-- An operation, with the time at which it is made.  `append_message` reads the
clock once more for the tier it answers. -/
inductive Op (μ : Type u) where
  | appendMessage (key : SessionKey) (message : μ) (now answered : Nat)
  | snapshotTranscript (key : SessionKey) (now : Nat)
  | tierOf (key : SessionKey) (now : Nat)

/-- What an operation answers. -/
inductive Answer (μ : Type u) where
  | tier (tier : SessionTier)
  | transcript (messages : List μ)

/-- An operation, or the background task. -/
inductive Label (μ : Type u) where
  | op (op : Op μ)
  | runCleanup (now : Nat)

/-- The sessions, the clock and the answers so far.  No step reads the answers. -/
structure State (μ : Type u) where
  clock : Nat
  inner : SessionKey → Option (AgentSession μ)
  answers : List (Answer μ)

/-- No turns yet. -/
def State.init : State μ where
  clock := 0
  inner := fun _ => none
  answers := []

namespace Op

/-- The time of an operation. -/
def now : Op μ → Nat
  | .appendMessage _ _ now _ => now
  | .snapshotTranscript _ now => now
  | .tierOf _ now => now

/-- The time at which an operation answers. -/
def answered : Op μ → Nat
  | .appendMessage _ _ _ answered => answered
  | .snapshotTranscript _ now => now
  | .tierOf _ now => now

end Op

/-- When the call is made. -/
def Label.now : Label μ → Nat
  | .op operation => operation.now
  | .runCleanup now => now

/-- When the call is answered. -/
def Label.answered : Label μ → Nat
  | .op operation => operation.answered
  | .runCleanup now => now

namespace State

/-- The transcript and last activity of a session after `append_message`. -/
def appended (state : State μ) (key : SessionKey) (message : μ) (now : Nat) : AgentSession μ :=
  ((state.inner key).getD ⟨[], now⟩).append message now

/-- `snapshot_transcript` -/
def snapshotTranscript (state : State μ) (key : SessionKey) : List μ :=
  ((state.inner key).map AgentSession.transcript).getD []

/-- `tier_of` -/
def tierOf (policy : Policy) (state : State μ) (key : SessionKey) (now : Nat) : SessionTier :=
  ((state.inner key).map fun session => session.tier policy now).getD .cold

/-- The sessions after an operation. -/
def innerAfter (state : State μ) : Op μ → SessionKey → Option (AgentSession μ)
  | .appendMessage key message now _ => fun other =>
      if other = key then some (state.appended key message now) else state.inner other
  | .snapshotTranscript _ _ => state.inner
  | .tierOf _ _ => state.inner

/-- The answer of an operation. -/
def answer (policy : Policy) (state : State μ) : Op μ → Answer μ
  | .appendMessage key message now answered =>
      .tier ((state.appended key message now).tier policy answered)
  | .snapshotTranscript key _ => .transcript (state.snapshotTranscript key)
  | .tierOf key now => .tier (state.tierOf policy key now)

/-- `run_cleanup` -/
def runCleanup (policy : Policy) (state : State μ) (now : Nat) :
    SessionKey → Option (AgentSession μ) := fun key =>
  (state.inner key).filter fun session => session.tier policy now != .cold

/-- The effect of a label. -/
def perform (policy : Policy) (state : State μ) : Label μ → State μ
  | .op op =>
      { clock := op.answered
        inner := state.innerAfter op
        answers := state.answers ++ [state.answer policy op] }
  | .runCleanup now =>
      { state with
        clock := now
        inner := state.runCleanup policy now }

end State

/-- One step: the clock does not go back. -/
def step (policy : Policy) : Action (State μ) (Label μ) := fun state label =>
  if state.clock ≤ label.now ∧ label.now ≤ label.answered then
    some (state.perform policy label)
  else none

/-- The operations among labels. -/
def operations (labels : List (Label μ)) : List (Op μ) :=
  labels.filterMap fun label =>
    match label with
    | .op op => some op
    | .runCleanup _ => none

/-- The messages that operations append to a session, with their times. -/
def appends (key : SessionKey) (ops : List (Op μ)) : List (μ × Nat) :=
  ops.filterMap fun op =>
    match op with
    | .appendMessage other message now _ => if other = key then some (message, now) else none
    | .snapshotTranscript _ _ => none
    | .tierOf _ _ => none

/-- The time of the last message of a session. -/
def lastAppend (key : SessionKey) (ops : List (Op μ)) : Option Nat :=
  (appends key ops).getLast?.map Prod.snd

/-- The session has a last message, and is cold by its time. -/
def Cold (policy : Policy) (key : SessionKey) (ops : List (Op μ)) (now : Nat) : Prop :=
  ∃ last, lastAppend key ops = some last ∧
    SessionTier.fromElapsed policy (now - last) = .cold

/-- The operation appends to a session or reads its transcript. -/
def Op.Touches (key : SessionKey) : Op μ → Prop
  | .appendMessage other _ _ _ => other = key
  | .snapshotTranscript other _ => other = key
  | .tierOf _ _ => False

/-- No transcript is read at or after a time when its session was appended to or
read while it was cold. -/
def ReadsWarm (policy : Policy) (ops : List (Op μ)) : Prop :=
  ∀ key before op after, ops = before ++ op :: after → op.Touches key →
    Cold policy key before op.now → ∀ now, .snapshotTranscript key now ∉ op :: after

/-- The contents of sessions do not depend on the cleanups: every two schedules
answer the same, a message stays until a cleanup finds its session cold, and the
tier of a session depends on its last message only. -/
structure ScheduleFree (policy : Policy) (ops : List (Op μ)) : Prop where
  same : ∀ (first second : List (Label μ)) firstEnd secondEnd,
    operations first = ops → operations second = ops →
      run (step policy) .init first = some firstEnd →
        run (step policy) .init second = some secondEnd → firstEnd.answers = secondEnd.answers
  kept : ∀ (before after : List (Label μ)) key message now answered target,
    operations (before ++ .op (.appendMessage key message now answered) :: after) = ops →
      run (step policy) .init (before ++ .op (.appendMessage key message now answered) :: after) =
        some target →
      (∀ earlier later cleanup, after = earlier ++ .runCleanup cleanup :: later →
        ¬ Cold policy key
          (operations (before ++ .op (.appendMessage key message now answered) :: earlier))
          cleanup) →
        message ∈ target.snapshotTranscript key
  active : ∀ (labels : List (Label μ)) key now target, operations labels <+: ops →
    run (step policy) .init labels = some target → target.clock ≤ now →
      target.tierOf policy key now =
        ((lastAppend key (operations labels)).map fun last =>
          SessionTier.fromElapsed policy (now - last)).getD .cold

variable {policy : Policy} {state target : State μ} {label : Label μ} {labels : List (Label μ)}
  {key : SessionKey} {ops : List (Op μ)} {now : Nat}

/-! ## Operations, times and tiers -/

theorem fromElapsed_eq_cold_iff {elapsed : Nat} :
    SessionTier.fromElapsed policy elapsed = .cold ↔
      policy.hotGap + policy.stashTtl < elapsed ∧ policy.warmTtl < elapsed := by
  unfold SessionTier.fromElapsed
  split
  · simp only [reduceCtorEq, false_iff]
    omega
  · split
    · simp only [reduceCtorEq, false_iff]
      omega
    · split
      · simp only [reduceCtorEq, false_iff]
        omega
      · simp only [true_iff]
        omega

/-- A cold session stays cold. -/
theorem Cold.mono {later : Nat} (cold : Cold policy key ops now) (le : now ≤ later) :
    Cold policy key ops later := by
  rcases cold with ⟨last, lastEq, elapsed⟩
  refine ⟨last, lastEq, ?_⟩
  rw [fromElapsed_eq_cold_iff] at elapsed ⊢
  omega

theorem operations_append (first second : List (Label μ)) :
    operations (first ++ second) = operations first ++ operations second :=
  List.filterMap_append

theorem appends_append (first second : List (Op μ)) :
    appends key (first ++ second) = appends key first ++ appends key second :=
  List.filterMap_append

theorem operations_map_op (ops : List (Op μ)) : operations (ops.map .op) = ops := by
  induction ops with
  | nil => rfl
  | cons op ops ih =>
      show op :: operations (ops.map .op) = op :: ops
      rw [ih]

theorem operations_concat_op (op : Op μ) :
    operations (labels ++ [.op op]) = operations labels ++ [op] :=
  operations_append labels [.op op]

theorem operations_concat_runCleanup :
    operations (labels ++ [.runCleanup now]) = operations labels :=
  (operations_append labels [.runCleanup now]).trans (List.append_nil _)

theorem lastAppend_appendMessage (message : μ) (answered : Nat) :
    lastAppend key (ops ++ [.appendMessage key message now answered]) = some now := by
  simp [lastAppend, appends]

/-- An operation that does not append to a session leaves its messages. -/
theorem appends_concat {op : Op μ} (other : ∀ message now answered,
      op ≠ .appendMessage key message now answered) :
    appends key (ops ++ [op]) = appends key ops := by
  rw [appends_append]
  cases op with
  | appendMessage target message now answered =>
      have distinct : target ≠ key := by
        rintro rfl
        exact other message now answered rfl
      simp [appends, distinct]
  | snapshotTranscript target now => simp [appends]
  | tierOf target now => simp [appends]

theorem step_eq_some_iff {next : State μ} :
    step policy state label = some next ↔
      (state.clock ≤ label.now ∧ label.now ≤ label.answered) ∧
        state.perform policy label = next := by
  unfold step
  split
  · next enabled => simp only [enabled, and_self, true_and, Option.some.injEq]
  · next disabled => simp only [disabled, false_and, reduceCtorEq]

theorem run_concat_eq_some_iff :
    run (step policy) .init (labels ++ [label]) = some target ↔
      ∃ middle, run (step policy) .init labels = some middle ∧
        step policy middle label = some target := by
  rw [run_append_eq_some_iff]
  simp only [run_cons_eq_some_iff, run_nil, Option.some.injEq, exists_eq_right]

/-! ## What a schedule leaves of a session -/

/-- A session was appended to or read while it was cold. -/
def Resumed (policy : Policy) (key : SessionKey) (ops : List (Op μ)) : Prop :=
  ∃ before op after, ops = before ++ op :: after ∧ op.Touches key ∧ Cold policy key before op.now

theorem Resumed.concat (resumed : Resumed policy key ops) (op : Op μ) :
    Resumed policy key (ops ++ [op]) := by
  rcases resumed with ⟨before, resuming, after, rfl, touches, cold⟩
  exact ⟨before, resuming, after ++ [op], by simp, touches, cold⟩

/-- A session that is kept has all its messages unless it was resumed, and one that
is gone was cold. -/
structure Follows (policy : Policy) (ops : List (Op μ)) (state : State μ) (key : SessionKey) :
    Prop where
  kept : ∀ session, state.inner key = some session →
    lastAppend key ops = some session.lastActive ∧
      (session.transcript = (appends key ops).map Prod.fst ∨ Resumed policy key ops)
  gone : state.inner key = none → appends key ops = [] ∨ Cold policy key ops state.clock

theorem follows_init (key : SessionKey) : Follows policy [] (.init : State μ) key where
  kept := by
    intro session held
    cases held
  gone := fun _ => Or.inl rfl

/-- An operation that leaves the session alone. -/
theorem Follows.concat_of_inner {op : Op μ} {next : State μ}
    (follows : Follows policy ops state key)
    (other : ∀ message now answered, op ≠ .appendMessage key message now answered)
    (inner : next.inner key = state.inner key) (le : state.clock ≤ next.clock) :
    Follows policy (ops ++ [op]) next key := by
  have same : appends key (ops ++ [op]) = appends key ops := appends_concat other
  have lastSame : lastAppend key (ops ++ [op]) = lastAppend key ops := by
    unfold lastAppend
    rw [same]
  constructor
  · intro session held
    rcases follows.kept session (inner ▸ held) with ⟨last, whole | resumed⟩
    · exact ⟨lastSame.trans last, Or.inl (same ▸ whole)⟩
    · exact ⟨lastSame.trans last, Or.inr (resumed.concat op)⟩
  · intro gone
    rcases follows.gone (inner ▸ gone) with nil | cold
    · exact Or.inl (same.trans nil)
    · right
      rcases cold.mono le with ⟨last, lastEq, elapsed⟩
      exact ⟨last, lastSame.trans lastEq, elapsed⟩

theorem Follows.appendMessage {message : μ} {answered : Nat}
    (follows : Follows policy ops state key) (le : state.clock ≤ now) :
    Follows policy (ops ++ [.appendMessage key message now answered])
      (state.perform policy (.op (.appendMessage key message now answered))) key := by
  have messages : (appends key (ops ++ [.appendMessage key message now answered])).map Prod.fst =
      (appends key ops).map Prod.fst ++ [message] := by
    simp [appends]
  constructor
  · intro session held
    have sessionEq : state.appended key message now = session := by
      simpa [State.perform, State.innerAfter] using held
    subst sessionEq
    refine ⟨lastAppend_appendMessage message answered, ?_⟩
    rw [messages]
    simp only [State.appended, AgentSession.append]
    cases before : state.inner key with
    | some session =>
        rcases (follows.kept session before).2 with whole | resumed
        · left
          rw [Option.getD_some, whole]
        · exact Or.inr (resumed.concat _)
    | none =>
        rcases follows.gone before with nil | cold
        · left
          rw [nil]
          rfl
        · exact Or.inr ⟨ops, _, [], rfl, rfl, cold.mono le⟩
  · intro gone
    simp [State.perform, State.innerAfter] at gone

theorem Follows.runCleanup (follows : Follows policy ops state key) (le : state.clock ≤ now) :
    Follows policy ops (state.perform policy (.runCleanup now)) key := by
  constructor
  · intro session held
    exact follows.kept session (Option.filter_eq_some_iff.mp held).1
  · intro gone
    have filtered : (state.inner key).filter (fun session => session.tier policy now != .cold) =
        none := gone
    cases before : state.inner key with
    | none =>
        rcases follows.gone before with nil | cold
        · exact Or.inl nil
        · exact Or.inr (cold.mono le)
    | some session =>
        rw [before, Option.filter_eq_none_iff] at filtered
        have cold : session.tier policy now = .cold := by
          simpa using filtered session rfl
        exact Or.inr ⟨_, (follows.kept session before).1, cold⟩

theorem follows_of_run (ran : run (step policy) .init labels = some target) (key : SessionKey) :
    Follows policy (operations labels) target key := by
  induction labels using List.reverseRecOn generalizing target with
  | nil =>
      cases ran
      exact follows_init key
  | append_singleton labels label ih =>
      rcases run_concat_eq_some_iff.mp ran with ⟨middle, before, stepEq⟩
      rcases step_eq_some_iff.mp stepEq with ⟨⟨le, within⟩, rfl⟩
      have follows := ih before
      have clocks : middle.clock ≤ label.answered := Nat.le_trans le within
      cases label with
      | runCleanup now =>
          rw [operations_concat_runCleanup]
          exact follows.runCleanup le
      | op op =>
          rw [operations_concat_op]
          cases op with
          | appendMessage other message now answered =>
              by_cases same : other = key
              · subst same
                exact follows.appendMessage le
              · apply follows.concat_of_inner _ _ clocks
                · rintro message now answered sameOp
                  cases sameOp
                  exact same rfl
                · have distinct : key ≠ other := fun eq => same eq.symm
                  simp [State.perform, State.innerAfter, distinct]
          | snapshotTranscript other now | tierOf other now =>
              apply follows.concat_of_inner _ _ clocks
              · rintro message now answered sameOp
                cases sameOp
              · rfl

/-! ## Reads of sessions that were not resumed -/

/-- What an operation answers after others, when its session was never cold. -/
def expected (policy : Policy) (before : List (Op μ)) : Op μ → Answer μ
  | .appendMessage _ _ now answered => .tier (.fromElapsed policy (answered - now))
  | .snapshotTranscript key _ => .transcript ((appends key before).map Prod.fst)
  | .tierOf key now =>
      .tier <| ((lastAppend key before).map fun last =>
        SessionTier.fromElapsed policy (now - last)).getD .cold

/-- The answers of operations that come after others. -/
def expectedAnswers (policy : Policy) : List (Op μ) → List (Op μ) → List (Answer μ)
  | _, [] => []
  | before, op :: after =>
      expected policy before op :: expectedAnswers policy (before ++ [op]) after

theorem expectedAnswers_concat (before : List (Op μ)) (op : Op μ) :
    expectedAnswers policy before (ops ++ [op]) =
      expectedAnswers policy before ops ++ [expected policy (before ++ ops) op] := by
  induction ops generalizing before with
  | nil => simp [expectedAnswers]
  | cons first ops ih =>
      rw [List.cons_append, expectedAnswers, expectedAnswers, ih, List.cons_append,
        List.append_assoc, List.singleton_append]

theorem ReadsWarm.of_concat {op : Op μ} (warm : ReadsWarm policy (ops ++ [op])) :
    ReadsWarm policy ops := by
  rintro key before resuming after rfl touches cold now mem
  apply warm key before resuming (after ++ [op]) (by simp) touches cold now
  rcases List.mem_cons.mp mem with same | later
  · rw [same]
    exact List.mem_cons_self
  · exact List.mem_cons_of_mem _ (List.mem_append_left _ later)

/-- The tier of a session depends on its last message only, also once it is gone. -/
theorem Follows.tierOf (follows : Follows policy ops state key) (le : state.clock ≤ now) :
    state.tierOf policy key now =
      ((lastAppend key ops).map fun last =>
        SessionTier.fromElapsed policy (now - last)).getD .cold := by
  unfold State.tierOf
  cases held : state.inner key with
  | some session =>
      rw [(follows.kept session held).1]
      rfl
  | none =>
      rcases follows.gone held with nil | cold
      · simp [lastAppend, nil]
      · rcases cold.mono le with ⟨last, lastEq, elapsed⟩
        rw [lastEq, Option.map_some, Option.getD_some, elapsed]
        rfl

/-- A read of a session that was not resumed sees every message. -/
theorem Follows.snapshotTranscript (follows : Follows policy ops state key)
    (warm : ReadsWarm policy (ops ++ [.snapshotTranscript key now])) (le : state.clock ≤ now) :
    state.snapshotTranscript key = (appends key ops).map Prod.fst := by
  unfold State.snapshotTranscript
  cases held : state.inner key with
  | some session =>
      rcases (follows.kept session held).2 with whole | resumed
      · rw [Option.map_some, Option.getD_some, whole]
      · rcases resumed with ⟨before, op, after, rfl, touches, cold⟩
        exfalso
        apply warm key before op (after ++ [.snapshotTranscript key now]) (by simp) touches cold now
        exact List.mem_cons_of_mem _ (List.mem_append_right _ (List.mem_singleton.mpr rfl))
  | none =>
      rcases follows.gone held with nil | cold
      · rw [nil]
        rfl
      · exfalso
        exact warm key ops _ [] rfl rfl (cold.mono le) now (List.mem_singleton.mpr rfl)

/-- Where no session is read after it was resumed, the answers follow from the
operations, whatever the cleanups. -/
theorem answers_of_run (warm : ReadsWarm policy (operations labels))
    (ran : run (step policy) .init labels = some target) :
    target.answers = expectedAnswers policy [] (operations labels) := by
  induction labels using List.reverseRecOn generalizing target with
  | nil =>
      cases ran
      rfl
  | append_singleton labels label ih =>
      rcases run_concat_eq_some_iff.mp ran with ⟨middle, before, stepEq⟩
      rcases step_eq_some_iff.mp stepEq with ⟨⟨le, within⟩, rfl⟩
      cases label with
      | runCleanup now =>
          rw [operations_concat_runCleanup] at warm ⊢
          have answers := ih warm before
          exact answers
      | op op =>
          rw [operations_concat_op] at warm ⊢
          rw [expectedAnswers_concat, List.nil_append, ← ih warm.of_concat before]
          apply congrArg fun answer => middle.answers ++ [answer]
          cases op with
          | appendMessage key message now answered =>
              rfl
          | snapshotTranscript key now =>
              exact congrArg Answer.transcript
                ((follows_of_run before key).snapshotTranscript warm le)
          | tierOf key now =>
              exact congrArg Answer.tier ((follows_of_run before key).tierOf le)

/-! ## A cleanup before a session is resumed -/

/-- Where no cleanup runs, a read sees the messages there were and those appended. -/
theorem snapshotTranscript_of_run {start : State μ}
    (ran : run (step policy) start (ops.map .op) = some target) :
    target.snapshotTranscript key =
      start.snapshotTranscript key ++ (appends key ops).map Prod.fst := by
  induction ops generalizing start with
  | nil =>
      cases ran
      simp [appends]
  | cons op ops ih =>
      rcases run_cons_eq_some_iff.mp ran with ⟨middle, stepEq, rest⟩
      rcases step_eq_some_iff.mp stepEq with ⟨-, rfl⟩
      rw [ih rest]
      cases op with
      | appendMessage other message now answered =>
          by_cases same : key = other
          · subst same
            have first : (start.perform policy
                (.op (.appendMessage key message now answered))).snapshotTranscript key =
                  start.snapshotTranscript key ++ [message] := by
              simp only [State.snapshotTranscript, State.perform, State.innerAfter, if_true,
                State.appended, AgentSession.append]
              cases start.inner key <;> rfl
            rw [first]
            simp [appends]
          · have distinct : ¬ other = key := fun eq => same eq.symm
            simp [State.snapshotTranscript, State.perform, State.innerAfter, same, distinct,
              appends]
      | snapshotTranscript other now | tierOf other now =>
          simp [State.snapshotTranscript, State.perform, State.innerAfter, appends]

/-- Whether labels are enabled depends on the clock only. -/
theorem run_of_clock {first second firstEnd : State μ} (clocks : first.clock = second.clock)
    (ran : run (step policy) first labels = some firstEnd) :
    ∃ secondEnd, run (step policy) second labels = some secondEnd := by
  induction labels generalizing first second with
  | nil => exact ⟨second, rfl⟩
  | cons label labels ih =>
      rcases run_cons_eq_some_iff.mp ran with ⟨middle, stepEq, rest⟩
      rcases step_eq_some_iff.mp stepEq with ⟨enabled, rfl⟩
      have sameClock : (first.perform policy label).clock =
        (second.perform policy label).clock := by
        cases label <;> rfl
      rcases ih sameClock rest with ⟨secondEnd, secondRest⟩
      refine ⟨secondEnd, run_cons_eq_some_iff.mpr ⟨_, ?_, secondRest⟩⟩
      exact step_eq_some_iff.mpr ⟨clocks ▸ enabled, rfl⟩

/-- Every operation answers once. -/
theorem answers_append_of_run {start : State μ}
    (ran : run (step policy) start (ops.map .op) = some target) :
    ∃ more, target.answers = start.answers ++ more ∧ more.length = ops.length := by
  induction ops generalizing start with
  | nil =>
      cases ran
      exact ⟨[], (List.append_nil _).symm, rfl⟩
  | cons op ops ih =>
      rcases run_cons_eq_some_iff.mp ran with ⟨middle, stepEq, rest⟩
      rcases step_eq_some_iff.mp stepEq with ⟨-, rfl⟩
      rcases ih rest with ⟨more, moreEq, lengths⟩
      refine ⟨start.answer policy op :: more, ?_, by
        rw [List.length_cons, List.length_cons, lengths]⟩
      rw [moreEq]
      simp [State.perform]

/-- The run of operations with a cleanup just before one of them. -/
theorem run_cleanup_before {before after : List (Op μ)} {op : Op μ}
    (ran : run (step policy) .init ((before ++ op :: after).map .op) = some target) :
    ∃ middle last, run (step policy) .init (before.map .op) = some middle ∧
      run (step policy) (middle.perform policy (.runCleanup op.now))
          ((op :: after).map .op) = some last ∧
        middle.clock ≤ op.now := by
  rw [List.map_append, run_append_eq_some_iff] at ran
  rcases ran with ⟨middle, beforeRan, afterRan⟩
  rcases run_cons_eq_some_iff.mp afterRan with ⟨next, stepEq, rest⟩
  rcases step_eq_some_iff.mp stepEq with ⟨⟨le, within⟩, rfl⟩
  have cleaned : step policy (middle.perform policy (.runCleanup op.now)) (.op op) =
      some ((middle.perform policy (.runCleanup op.now)).perform policy (.op op)) :=
    step_eq_some_iff.mpr ⟨⟨Nat.le_refl _, within⟩, rfl⟩
  have sameClock : (middle.perform policy (.op op)).clock =
      ((middle.perform policy (.runCleanup op.now)).perform policy (.op op)).clock :=
    rfl
  rcases run_of_clock sameClock rest with ⟨last, lastRan⟩
  exact ⟨middle, last, beforeRan, run_cons_eq_some_iff.mpr ⟨_, cleaned, lastRan⟩, le⟩

/-- A cleanup evicts a session that is cold. -/
theorem snapshotTranscript_runCleanup {before : List (Op μ)}
    (ran : run (step policy) .init (before.map .op) = some state)
    (cold : Cold policy key before now) :
    (state.perform policy (.runCleanup now)).snapshotTranscript key = [] := by
  have follows := follows_of_run ran key
  rw [operations_map_op] at follows
  simp only [State.snapshotTranscript, State.perform, State.runCleanup]
  cases held : state.inner key with
  | none => rfl
  | some session =>
      rcases cold with ⟨last, lastEq, elapsed⟩
      have same : last = session.lastActive :=
        Option.some.inj (lastEq.symm.trans (follows.kept session held).1)
      have evicted : (session.tier policy now != .cold) = false := by
        simp [AgentSession.tier, ← same, elapsed]
      simp [Option.filter, evicted]

/-- What a read answers when no cleanup runs, and where. -/
theorem answers_read {start : State μ} {between rest : List (Op μ)}
    (ran : run (step policy) start
      ((between ++ .snapshotTranscript key now :: rest).map .op) = some target) :
    ∃ earlier more, target.answers = (start.answers ++ earlier) ++
        .transcript (start.snapshotTranscript key ++ (appends key between).map Prod.fst) :: more ∧
      earlier.length = between.length := by
  rw [List.map_append, run_append_eq_some_iff] at ran
  rcases ran with ⟨middle, betweenRan, readRan⟩
  rcases run_cons_eq_some_iff.mp readRan with ⟨next, stepEq, restRan⟩
  rcases step_eq_some_iff.mp stepEq with ⟨-, rfl⟩
  rcases answers_append_of_run betweenRan with ⟨earlier, earlierEq, lengths⟩
  rcases answers_append_of_run restRan with ⟨more, moreEq, -⟩
  refine ⟨earlier, more, ?_, lengths⟩
  rw [moreEq, ← earlierEq, ← snapshotTranscript_of_run betweenRan]
  simp [State.perform, State.answer]

/-- Where two schedules always answer the same, no session is read after it was
resumed: a cleanup just before would have evicted it. -/
theorem readsWarm_of_same
    (ordered : (run (step policy) (.init : State μ) (ops.map .op)).isSome)
    (same : ∀ (first second : List (Label μ)) firstEnd secondEnd,
      operations first = ops → operations second = ops →
        run (step policy) .init first = some firstEnd →
          run (step policy) .init second = some secondEnd →
            firstEnd.answers = secondEnd.answers) : ReadsWarm policy ops := by
  rintro key before op after rfl _ cold readTime mem
  rcases Option.isSome_iff_exists.mp ordered with ⟨plainEnd, plain⟩
  rcases run_cleanup_before plain with ⟨middle, cleanedEnd, beforeRan, cleanedRan, le⟩
  have cleaned : run (step policy) .init
      (before.map .op ++ .runCleanup op.now :: (op :: after).map .op) = some cleanedEnd := by
    rw [run_append_eq_some_iff]
    refine ⟨middle, beforeRan, run_cons_eq_some_iff.mpr ⟨_, ?_, cleanedRan⟩⟩
    exact step_eq_some_iff.mpr ⟨⟨le, Nat.le_refl _⟩, rfl⟩
  have cleanedOps : operations (before.map .op ++ .runCleanup op.now :: (op :: after).map .op) =
      before ++ op :: after := by
    rw [operations_append, operations_map_op]
    exact congrArg (before ++ ·) (operations_map_op (op :: after))
  have answers := same _ _ plainEnd cleanedEnd (operations_map_op _) cleanedOps plain cleaned
  rcases List.append_of_mem mem with ⟨between, rest, split⟩
  rw [split, ← List.append_assoc] at plain
  rw [split] at cleanedRan
  rcases answers_read plain with ⟨plainEarlier, plainMore, plainEq, plainLength⟩
  rcases answers_read cleanedRan with ⟨cleanedEarlier, cleanedMore, cleanedEq, cleanedLength⟩
  rcases answers_append_of_run beforeRan with ⟨beforeAnswers, beforeEq, beforeLength⟩
  have initially : (State.init : State μ).answers = [] := rfl
  have evicted := snapshotTranscript_runCleanup beforeRan cold
  have middleAnswers : (middle.perform policy (.runCleanup op.now)).answers = beforeAnswers :=
    beforeEq
  rw [plainEq, cleanedEq, middleAnswers, evicted, initially] at answers
  have lengths : (([] : List (Answer μ)) ++ plainEarlier).length =
      (beforeAnswers ++ cleanedEarlier).length := by
    rw [List.nil_append, List.length_append, plainLength, beforeLength, cleanedLength,
      List.length_append]
  have reads := (List.append_inj answers lengths).2
  have transcripts := Answer.transcript.inj (List.cons.inj reads).1
  rw [appends_append, List.map_append] at transcripts
  have counts := congrArg List.length transcripts
  rcases cold with ⟨last, lastEq, -⟩
  have none : appends key before = [] := by
    apply List.eq_nil_of_length_eq_zero
    simp only [State.snapshotTranscript, State.init, List.length_append, List.length_map] at counts
    simp at counts
    simpa using counts
  simp [lastAppend, none] at lastEq

/-- A message is there until a cleanup finds its session cold. -/
theorem mem_snapshotTranscript_of_run {before after : List (Label μ)} {message : μ}
    {answered : Nat}
    (ran : run (step policy) .init
      (before ++ .op (.appendMessage key message now answered) :: after) = some target)
    (warm : ∀ earlier later cleanup, after = earlier ++ .runCleanup cleanup :: later →
      ¬ Cold policy key
        (operations (before ++ .op (.appendMessage key message now answered) :: earlier))
        cleanup) :
    message ∈ target.snapshotTranscript key := by
  induction after using List.reverseRecOn generalizing target with
  | nil =>
      rcases run_concat_eq_some_iff.mp ran with ⟨middle, -, stepEq⟩
      rcases step_eq_some_iff.mp stepEq with ⟨-, rfl⟩
      simp [State.snapshotTranscript, State.perform, State.innerAfter, State.appended,
        AgentSession.append]
  | append_singleton after label ih =>
      rw [← List.cons_append, ← List.append_assoc] at ran
      rcases run_concat_eq_some_iff.mp ran with ⟨middle, earlierRan, stepEq⟩
      rcases step_eq_some_iff.mp stepEq with ⟨-, rfl⟩
      have here : message ∈ middle.snapshotTranscript key := by
        apply ih earlierRan
        rintro earlier later cleanup rfl
        exact warm earlier (later ++ [label]) cleanup (by simp)
      cases label with
      | op op =>
          have ran : run (step policy) middle ([op].map .op) =
              some (middle.perform policy (.op op)) :=
            run_cons_eq_some_iff.mpr ⟨_, stepEq, rfl⟩
          rw [snapshotTranscript_of_run ran]
          exact List.mem_append_left _ here
      | runCleanup cleanup =>
          have follows := follows_of_run earlierRan key
          have notCold := warm after [] cleanup rfl
          simp only [State.snapshotTranscript, State.perform, State.runCleanup] at here ⊢
          cases held : middle.inner key with
          | none => simp [held] at here
          | some session =>
              have tier : session.tier policy cleanup ≠ .cold := by
                intro cold
                exact notCold ⟨_, (follows.kept session held).1, cold⟩
              simpa [held, Option.filter, tier] using here

/-- The contents of sessions do not depend on when cleanups run exactly if no
transcript is read at or after a time when its session was resumed while cold. -/
theorem scheduleFree_iff
    (ordered : (run (step policy) (.init : State μ) (ops.map .op)).isSome) :
    ScheduleFree policy ops ↔ ReadsWarm policy ops := by
  constructor
  · intro free
    exact readsWarm_of_same ordered free.same
  · intro warm
    constructor
    · rintro first second firstEnd secondEnd firstOps secondOps firstRan secondRan
      rw [answers_of_run (firstOps ▸ warm) firstRan, answers_of_run (secondOps ▸ warm) secondRan,
        firstOps, secondOps]
    · intro before after key message now answered target _ ran stays
      exact mem_snapshotTranscript_of_run ran stays
    · intro labels key now target _ ran le
      exact (follows_of_run ran key).tierOf le

/-- The default policy, in minutes. -/
def minutes : Policy where
  hotGap := 30
  stashTtl := 30
  warmTtl := 1440

/-- The session of a console. -/
def console : SessionKey where
  agentId := "agent.a"
  bridgeSessionId := "console"

theorem scheduleFree_within_a_day :
    ScheduleFree minutes [.appendMessage console "hello" 0 0, .snapshotTranscript console 100] := by
  apply (scheduleFree_iff rfl).mpr
  rintro key before op after split - ⟨last, lastEq, elapsed⟩
  cases before with
  | nil => cases lastEq
  | cons first before =>
      cases before with
      | nil =>
          cases split
          by_cases same : console = key
          · have zero : last = 0 := by
              simpa [lastAppend, appends, same, eq_comm] using lastEq
            rw [zero] at elapsed
            cases elapsed
          · simp [lastAppend, appends, same] at lastEq
      | cons second before => simp at split

/-- A message of the day before is read back unless a cleanup came before the
session was resumed. -/
theorem cleanup_decides_transcript :
    ¬ ∀ (policy : Policy) (ops : List (Op String)),
      (run (step policy) (.init : State String) (ops.map .op)).isSome →
        ScheduleFree policy ops := by
  intro always
  have free := always minutes [.appendMessage console "yesterday" 0 0,
    .appendMessage console "today" 1500 1500, .snapshotTranscript console 1500] rfl
  have same : ([.tier .hotActive, .tier .hotActive, .transcript ["yesterday", "today"]] :
      List (Answer String)) = [.tier .hotActive, .tier .hotActive, .transcript ["today"]] :=
    free.same
      [.op (.appendMessage console "yesterday" 0 0), .op (.appendMessage console "today" 1500 1500),
        .op (.snapshotTranscript console 1500)]
      [.op (.appendMessage console "yesterday" 0 0), .runCleanup 1450,
        .op (.appendMessage console "today" 1500 1500), .op (.snapshotTranscript console 1500)]
      _ _ rfl rfl rfl rfl
  simp at same

end Sessions

end ClotoCore.Turns
