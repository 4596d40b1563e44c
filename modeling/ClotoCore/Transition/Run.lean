import Mathlib.Order.Defs.PartialOrder

/-!
# Executable labelled runs

A component that takes one labelled action at a time is an option-valued step
function; `none` means that the label is not enabled in the state.  This module
is the induction principle of every such component: what one enabled step
preserves, a whole run preserves.
-/

namespace ClotoCore.Transition

universe u v

variable {σ : Type u} {ι : Type v}

/-- One executable labelled step. -/
abbrev Action (σ : Type u) (ι : Type v) := σ → ι → Option σ

/-- Execute a sequence of labels, failing at the first one not enabled. -/
def run (step : Action σ ι) : σ → List ι → Option σ
  | state, [] => some state
  | state, label :: labels =>
      (step state label).bind fun next => run step next labels

@[simp]
theorem run_nil (step : Action σ ι) (state : σ) : run step state [] = some state :=
  rfl

theorem run_cons_eq_some_iff {step : Action σ ι} {state target : σ} {label : ι}
    {labels : List ι} :
    run step state (label :: labels) = some target ↔
      ∃ middle, step state label = some middle ∧ run step middle labels = some target := by
  simp only [run]
  exact Option.bind_eq_some_iff

/-- A run splits at an arbitrary point of its label sequence. -/
theorem run_append_eq_some_iff {step : Action σ ι} {state target : σ}
    {first second : List ι} :
    run step state (first ++ second) = some target ↔
      ∃ middle, run step state first = some middle ∧ run step middle second = some target := by
  induction first generalizing state with
  | nil => simp
  | cons label labels ih =>
      simp only [List.cons_append, run_cons_eq_some_iff, ih]
      constructor
      · rintro ⟨next, stepEq, middle, left, right⟩
        exact ⟨middle, ⟨next, stepEq, left⟩, right⟩
      · rintro ⟨middle, ⟨next, stepEq, left⟩, right⟩
        exact ⟨next, stepEq, middle, left, right⟩

/-- Where every label is enabled in every state, a run folds the steps. -/
theorem run_eq_some_foldl {step : Action σ ι} {operate : σ → ι → σ}
    (total : ∀ state label, step state label = some (operate state label)) (state : σ)
    (labels : List ι) : run step state labels = some (labels.foldl operate state) := by
  induction labels generalizing state with
  | nil => rfl
  | cons label labels ih =>
      rw [run, total]
      exact ih (operate state label)

/-- A property that every enabled step preserves holds at the end of a run. -/
theorem run_invariant {step : Action σ ι} (Holds : σ → Prop)
    (preserved : ∀ ⦃state label next⦄, Holds state → step state label = some next → Holds next)
    {state target : σ} {labels : List ι} (initially : Holds state)
    (ran : run step state labels = some target) : Holds target := by
  induction labels generalizing state with
  | nil =>
      cases ran
      exact initially
  | cons label labels ih =>
      obtain ⟨middle, stepEq, rest⟩ := run_cons_eq_some_iff.mp ran
      exact ih (preserved initially stepEq) rest

/-- Every step of a run, taken in the state it is taken in, meets `Meets`. -/
def Along (step : Action σ ι) (Meets : σ → ι → Prop) : σ → List ι → Prop
  | _, [] => True
  | state, label :: labels =>
      Meets state label ∧ ∀ next, step state label = some next → Along step Meets next labels

@[simp]
theorem along_nil (step : Action σ ι) (Meets : σ → ι → Prop) (state : σ) :
    Along step Meets state [] :=
  trivial

/-- Whether every step meets a property can be computed from the start. -/
def decideAlong (step : Action σ ι) (Meets : σ → ι → Prop)
    [∀ state label, Decidable (Meets state label)] :
    ∀ (state : σ) (labels : List ι), Decidable (Along step Meets state labels)
  | _, [] => isTrue trivial
  | state, label :: labels =>
      match stepEq : step state label with
      | none =>
          decidable_of_iff (Meets state label) <| by
            simp [Along, stepEq]
      | some next =>
          have := decideAlong step Meets next labels
          decidable_of_iff (Meets state label ∧ Along step Meets next labels) <| by
            simp [Along, stepEq]

instance (step : Action σ ι) (Meets : σ → ι → Prop)
    [∀ state label, Decidable (Meets state label)] (state : σ) (labels : List ι) :
    Decidable (Along step Meets state labels) :=
  decideAlong step Meets state labels

theorem Along.mono {step : Action σ ι} {First Second : σ → ι → Prop}
    (weaker : ∀ ⦃state label⦄, First state label → Second state label) {state : σ}
    {labels : List ι} (along : Along step First state labels) : Along step Second state labels := by
  induction labels generalizing state with
  | nil => trivial
  | cons label labels ih =>
      constructor
      · exact weaker along.1
      · intro next stepEq
        exact ih (along.2 next stepEq)

/-- What is weaker for the labels of a run is met along it. -/
theorem Along.mono_mem {step : Action σ ι} {First Second : σ → ι → Prop} {state : σ}
    {labels : List ι} (along : Along step First state labels)
    (weaker : ∀ state, ∀ label ∈ labels, First state label → Second state label) :
    Along step Second state labels := by
  induction labels generalizing state with
  | nil => trivial
  | cons label labels ih =>
      constructor
      · exact weaker state label List.mem_cons_self along.1
      · intro next stepEq
        exact ih (along.2 next stepEq) fun state other mem =>
          weaker state other (List.mem_cons_of_mem label mem)

/-- A run that meets a property meets it as far as it is followed. -/
theorem Along.of_append {step : Action σ ι} {Meets : σ → ι → Prop} {state : σ}
    {first second : List ι} (along : Along step Meets state (first ++ second)) :
    Along step Meets state first := by
  induction first generalizing state with
  | nil => trivial
  | cons label labels ih =>
      constructor
      · exact along.1
      · intro next stepEq
        exact ih (along.2 next stepEq)

/-- A run that meets a property meets it in each of its beginnings. -/
theorem Along.take {step : Action σ ι} {Meets : σ → ι → Prop} {state : σ} {labels : List ι}
    (along : Along step Meets state labels) (count : Nat) :
    Along step Meets state (labels.take count) := by
  rw [← List.take_append_drop count labels] at along
  exact along.of_append

/-- A run that meets a property meets it from every state it passes. -/
theorem Along.of_run {step : Action σ ι} {Meets : σ → ι → Prop} {state middle : σ}
    {first second : List ι} (along : Along step Meets state (first ++ second))
    (ran : run step state first = some middle) : Along step Meets middle second := by
  induction first generalizing state with
  | nil =>
      cases ran
      exact along
  | cons label labels ih =>
      obtain ⟨next, stepEq, rest⟩ := run_cons_eq_some_iff.mp ran
      exact ih (along.2 next stepEq) rest

/-- Two step properties that agree on every enabled step of a run agree along it. -/
theorem along_congr {step : Action σ ι} {First Second : σ → ι → Prop} {state : σ}
    {labels : List ι}
    (agree : ∀ ⦃state label next⦄, step state label = some next →
      (First state label ↔ Second state label))
    {target : σ} (ran : run step state labels = some target) :
    Along step First state labels ↔ Along step Second state labels := by
  induction labels generalizing state with
  | nil => simp
  | cons label labels ih =>
      obtain ⟨middle, stepEq, rest⟩ := run_cons_eq_some_iff.mp ran
      simp only [Along, agree stepEq, stepEq, Option.some.injEq, forall_eq', ih rest]

/-- Two step properties that agree wherever something holds which the steps that meet the
first of them preserve, agree along a run. -/
theorem along_congr_of {step : Action σ ι} {First Second : σ → ι → Prop} {Carried : σ → Prop}
    (agree : ∀ ⦃state label⦄, Carried state → (First state label ↔ Second state label))
    (carried : ∀ ⦃state label next⦄, Carried state → First state label →
      step state label = some next → Carried next)
    {state : σ} (initially : Carried state) (labels : List ι) :
    Along step First state labels ↔ Along step Second state labels := by
  induction labels generalizing state with
  | nil => exact Iff.rfl
  | cons label labels ih =>
      constructor
      · rintro ⟨first, rest⟩
        refine ⟨(agree initially).mp first, ?_⟩
        intro next stepEq
        exact (ih (carried initially first stepEq)).mp (rest next stepEq)
      · rintro ⟨second, rest⟩
        have first := (agree initially).mpr second
        refine ⟨first, ?_⟩
        intro next stepEq
        exact (ih (carried initially first stepEq)).mpr (rest next stepEq)

/-- A property preserved by the steps that meet `Meets` holds at the end of a
run all of whose steps meet it. -/
theorem run_invariant_along {step : Action σ ι} {Meets : σ → ι → Prop} (Holds : σ → Prop)
    (preserved : ∀ ⦃state label next⦄, Holds state → Meets state label →
      step state label = some next → Holds next)
    {state target : σ} {labels : List ι} (initially : Holds state)
    (meets : Along step Meets state labels) (ran : run step state labels = some target) :
    Holds target := by
  induction labels generalizing state with
  | nil =>
      cases ran
      exact initially
  | cons label labels ih =>
      obtain ⟨middle, stepEq, rest⟩ := run_cons_eq_some_iff.mp ran
      exact ih (preserved initially meets.1 stepEq) (meets.2 middle stepEq) rest

/-- Where the steps that meet a condition preserve more than a property, and only
those preserve the property, it holds throughout a run exactly if every step
meets the condition. -/
theorem throughout_iff_along_of {step : Action σ ι} {Meets : σ → ι → Prop}
    {Carried Holds : σ → Prop} (holds : ∀ ⦃state⦄, Carried state → Holds state)
    (carried : ∀ ⦃state label next⦄, Carried state → Meets state label →
      step state label = some next → Carried next)
    (exact : ∀ ⦃state label next⦄, Carried state → step state label = some next → Holds next →
      Meets state label)
    {state target : σ} {labels : List ι} (initially : Carried state)
    (ran : run step state labels = some target) :
    (∀ count middle, run step state (labels.take count) = some middle → Holds middle) ↔
      Along step Meets state labels := by
  induction labels generalizing state with
  | nil =>
      constructor
      · intro
        exact trivial
      · intro along count middle passed
        rw [List.take_nil] at passed
        cases passed
        exact holds initially
  | cons label labels ih =>
      rcases run_cons_eq_some_iff.mp ran with ⟨next, stepEq, rest⟩
      constructor
      · intro throughout
        have nextHolds : Holds next := by
          apply throughout 1
          simp [run, stepEq]
        have meets := exact initially stepEq nextHolds
        constructor
        · exact meets
        · intro other otherEq
          rw [stepEq] at otherEq
          cases otherEq
          apply (ih (carried initially meets stepEq) rest).mp
          intro count middle passed
          apply throughout (count + 1) middle
          rw [List.take_succ_cons]
          exact run_cons_eq_some_iff.mpr ⟨next, stepEq, passed⟩
      · rintro ⟨meets, along⟩ count middle passed
        cases count with
        | zero =>
            cases passed
            exact holds initially
        | succ count =>
            rw [List.take_succ_cons] at passed
            rcases run_cons_eq_some_iff.mp passed with ⟨other, otherEq, passed⟩
            rw [stepEq] at otherEq
            cases otherEq
            exact (ih (carried initially meets stepEq) rest).mpr (along next stepEq) count middle
              passed

/-- Where each step preserves a property exactly if it meets a condition, the
property holds throughout a run exactly if every step meets the condition. -/
theorem throughout_iff_along {step : Action σ ι} {Meets : σ → ι → Prop} {Holds : σ → Prop}
    (exact : ∀ ⦃state label next⦄, Holds state → step state label = some next →
      (Holds next ↔ Meets state label))
    {state target : σ} {labels : List ι} (initially : Holds state)
    (ran : run step state labels = some target) :
    (∀ count middle, run step state (labels.take count) = some middle → Holds middle) ↔
      Along step Meets state labels := by
  apply throughout_iff_along_of (fun _ holds => holds) _ _ initially ran
  · intro state label next holds meets stepEq
    exact (exact holds stepEq).mpr meets
  · intro state label next holds stepEq nextHolds
    exact (exact holds stepEq).mp nextHolds

end ClotoCore.Transition
