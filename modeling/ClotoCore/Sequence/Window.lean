import ClotoCore.Sequence.Spaced
import Mathlib.Data.List.TakeWhile

/-!
# A sliding window over what was let through

Each event of a kind is let through unless the window that ends at it has a given number
of the kind already.  What is let through then never has more in any window, a refusal
leaves no trace, and kinds do not see each other.
-/

namespace ClotoCore.Sequence

universe u

variable {κ : Type u} [DecidableEq κ] (limit length : Nat)

/-- An event of a kind. -/
structure Event (κ : Type u) where
  kind : κ
  time : Nat
  deriving DecidableEq

/-- The times of the window that ends at `now`. -/
def lately (now : Nat) (times : List Nat) : List Nat :=
  times.filter fun time => decide (now < time + length)

/-- Whether an event is let through, after what was let through of each kind. -/
def passes (history : κ → List Nat) (event : Event κ) : Bool :=
  decide ((lately length event.time (history event.kind)).length < limit)

/-- What was let through, after an event. -/
def record (history : κ → List Nat) (event : Event κ) : κ → List Nat :=
  if passes limit length history event then
    Function.update history event.kind (history event.kind ++ [event.time])
  else history

/-- What was let through, after events. -/
def recordAll (history : κ → List Nat) (events : List (Event κ)) : κ → List Nat :=
  events.foldl (record limit length) history

/-- Which events are let through. -/
def passAll (history : κ → List Nat) : List (Event κ) → List Bool
  | [] => []
  | event :: events =>
      passes limit length history event :: passAll (record limit length history event) events

/-- The times of a kind among the events that were let through. -/
def passedTimes (kind : κ) (events : List (Event κ)) (answers : List Bool) : List Nat :=
  ((events.zip answers).filter fun entry => entry.2 && entry.1.kind == kind).map
    fun entry => entry.1.time

variable {limit length} {history : κ → List Nat} {event : Event κ} {events : List (Event κ)}
  {kind : κ}

theorem passAll_append (before after : List (Event κ)) :
    passAll limit length history (before ++ after) =
      passAll limit length history before ++
        passAll limit length (recordAll limit length history before) after := by
  induction before generalizing history with
  | nil => rfl
  | cons event before ih =>
      rw [List.cons_append, passAll, passAll, ih]
      rfl

@[simp]
theorem length_passAll : (passAll limit length history events).length = events.length := by
  induction events generalizing history with
  | nil => rfl
  | cons event events ih => simp [passAll, ih]

theorem record_apply :
    record limit length history event kind =
      history kind ++
        if passes limit length history event ∧ event.kind = kind then [event.time] else [] := by
  unfold record
  split
  case isTrue passed =>
    by_cases same : kind = event.kind
    · subst same
      simp [passed]
    · simp [same, Ne.symm same]
  case isFalse refused => simp [refused]

/-- What was let through is read off the answers. -/
theorem recordAll_apply :
    recordAll limit length history events kind =
      history kind ++ passedTimes kind events (passAll limit length history events) := by
  induction events generalizing history with
  | nil => simp [recordAll, passedTimes]
  | cons event events ih =>
      have rest : recordAll limit length history (event :: events) kind =
          recordAll limit length (record limit length history event) events kind := rfl
      rw [rest, ih, record_apply, passAll, List.append_assoc]
      congr 1
      by_cases passed : passes limit length history event = true ∧ event.kind = kind
      · simp [passedTimes, passed]
      · have dropped : (passes limit length history event && event.kind == kind) = false := by
          simpa using passed
        simp [passedTimes, passed, dropped]

/-! ## No window has more -/

/-- What was let through of each kind by a time, with no window over the limit. -/
structure Limited (limit length : Nat) (history : κ → List Nat) (clock : Nat) : Prop where
  ordered : ∀ kind, ∀ time ∈ history kind, time ≤ clock
  bounded : ∀ kind start, (within length start (history kind)).length ≤ limit

omit [DecidableEq κ] in
theorem limited_empty (clock : Nat) : Limited limit length (fun _ : κ => []) clock where
  ordered := nofun
  bounded := fun _ _ => Nat.zero_le _

/-- A window that an event falls into holds no time that the window ending at the event
does not hold. -/
theorem length_within_le_lately {times : List Nat} {start now : Nat}
    (inside : now < start + length) :
    (within length start times).length ≤ (lately length now times).length := by
  refine List.Sublist.length_le (List.monotone_filter_right times ?_)
  intro time mem
  simp only [Bool.and_eq_true, decide_eq_true_eq] at mem ⊢
  omega

theorem Limited.record {clock : Nat} (limited : Limited limit length history clock)
    (later : clock ≤ event.time) :
    Limited limit length (record limit length history event) event.time where
  ordered := by
    intro kind time mem
    rw [record_apply] at mem
    rcases List.mem_append.mp mem with mem | mem
    · exact Nat.le_trans (limited.ordered kind time mem) later
    · split at mem
      · rw [List.mem_singleton.mp mem]
      · simp at mem
  bounded := by
    intro kind start
    rw [record_apply]
    split
    case isFalse => simpa using limited.bounded kind start
    case isTrue passed =>
      obtain ⟨passed, rfl⟩ := passed
      have few : (lately length event.time (history event.kind)).length < limit :=
        of_decide_eq_true passed
      rw [within, List.filter_append, List.length_append]
      change (within length start (history event.kind)).length + _ ≤ limit
      by_cases inside : start ≤ event.time ∧ event.time < start + length
      · have fewer : (within length start (history event.kind)).length ≤
            (lately length event.time (history event.kind)).length :=
          length_within_le_lately inside.2
        have one : ([event.time].filter fun time => start ≤ time && time < start + length).length ≤ 1 :=
          List.length_filter_le _ _
        omega
      · have none : [event.time].filter
          (fun time => start ≤ time && time < start + length) = [] := by
          simpa using inside
        rw [none]
        exact limited.bounded event.kind start

/-- No window of what is let through has more than the limit. -/
theorem Limited.recordAll {clock : Nat} (limited : Limited limit length history clock)
    (later : ∀ event ∈ events, clock ≤ event.time)
    (ordered : events.Pairwise fun first second => first.time ≤ second.time) (kind : κ)
    (start : Nat) :
    (within length start (recordAll limit length history events kind)).length ≤ limit := by
  induction events generalizing history clock with
  | nil => exact limited.bounded kind start
  | cons event events ih =>
      obtain ⟨first, rest⟩ := List.pairwise_cons.mp ordered
      exact ih (limited.record (later event List.mem_cons_self)) first rest

/-! ## Refusals and other kinds -/

/-- Leaving out an event that was refused changes no other answer. -/
theorem passAll_of_refused {before after : List (Event κ)} {later : List Bool}
    (refused : passAll limit length history (before ++ event :: after) =
      passAll limit length history before ++ false :: later) :
    passAll limit length history (before ++ after) =
      passAll limit length history before ++ later := by
  rw [passAll_append, passAll] at refused
  obtain ⟨answer, rest⟩ := List.cons.inj (List.append_cancel_left refused)
  rw [passAll_append, ← rest, record, if_neg (by simp [answer])]

/-- An event is refused where the window that ends at it is full. -/
theorem full_of_refused {before after : List (Event κ)} {later : List Bool}
    (refused : passAll limit length history (before ++ event :: after) =
      passAll limit length history before ++ false :: later) :
    limit ≤ (lately length event.time
      (recordAll limit length history before event.kind)).length := by
  rw [passAll_append, passAll] at refused
  have answer := (List.cons.inj (List.append_cancel_left refused)).1
  simpa [passes] using answer

/-- The answers to the events of a kind are those they get alone. -/
theorem passAll_of_kind {other : κ → List Nat} (same : history kind = other kind) :
    (events.zip (passAll limit length history events)).filter (fun entry => entry.1.kind == kind) =
      (events.filter fun event => event.kind == kind).zip
        (passAll limit length other (events.filter fun event => event.kind == kind)) := by
  induction events generalizing history other with
  | nil => rfl
  | cons event events ih =>
      rw [passAll, List.zip_cons_cons, List.filter_cons, List.filter_cons]
      by_cases own : event.kind = kind
      · subst own
        have alike : passes limit length history event = passes limit length other event := by
          rw [passes, passes, same]
        simp only [beq_self_eq_true, if_true]
        rw [passAll, List.zip_cons_cons, alike, ih]
        rw [record_apply, record_apply, same, alike]
      · simp only [beq_iff_eq, own, if_false]
        refine ih ?_
        rw [record_apply, same]
        simp [own]

end ClotoCore.Sequence
