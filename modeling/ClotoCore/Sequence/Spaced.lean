import Mathlib.Data.List.Basic

/-!
# Events that keep a distance

Of some events in the order of their times, no window of a given length has two exactly if
each two of them are at least that far apart.
-/

namespace ClotoCore.Sequence

universe u v

variable {length : Nat} {times : List Nat}

/-- The times within a window. -/
def within (length start : Nat) (times : List Nat) : List Nat :=
  times.filter fun time => start ≤ time && time < start + length

/-- No window has two of the times. -/
def Spaced (length : Nat) (times : List Nat) : Prop :=
  ∀ start, (within length start times).length ≤ 1

theorem mem_within_iff {start time : Nat} :
    time ∈ within length start times ↔ time ∈ times ∧ start ≤ time ∧ time < start + length := by
  simp [within]

/-- In their order, the next time must be apart from all before. -/
theorem spaced_append_iff {next : Nat} (positive : 0 < length)
    (ordered : ∀ time ∈ times, time ≤ next) :
    Spaced length (times ++ [next]) ↔
      Spaced length times ∧ ∀ time ∈ times, time + length ≤ next := by
  have split : ∀ start, within length start (times ++ [next])
      = within length start times ++ within length start [next] :=
    fun _ => List.filter_append _ _
  constructor
  · intro spaced
    constructor
    · intro start
      have few := spaced start
      rw [split, List.length_append] at few
      omega
    · intro time mem
      by_contra close
      have few := spaced time
      have first : time ∈ within length time times :=
        mem_within_iff.mpr ⟨mem, Nat.le_refl _, by omega⟩
      have second : next ∈ within length time [next] := by
        have after := ordered time mem
        exact mem_within_iff.mpr ⟨List.mem_cons_self, after, by omega⟩
      rw [split, List.length_append] at few
      have one := List.length_pos_of_mem first
      have two := List.length_pos_of_mem second
      omega
  · rintro ⟨spaced, apart⟩ start
    rw [split, List.length_append]
    by_cases inside : start ≤ next ∧ next < start + length
    · have none : within length start times = [] := by
        apply List.filter_eq_nil_iff.mpr
        intro time mem
        have far := apart time mem
        simp only [Bool.and_eq_true, decide_eq_true_eq]
        omega
      rw [none]
      exact Nat.le_trans (Nat.add_le_add_left (List.length_filter_le _ _) _) (Nat.le_refl 1)
    · have none : within length start [next] = [] := by
        apply List.filter_eq_nil_iff.mpr
        intro other mem
        rw [List.mem_singleton.mp mem]
        simpa using inside
      rw [none]
      exact spaced start

/-- Changing what is not read of an item changes nothing. -/
theorem filterMap_modify {α : Type u} {β : Type v} {change : α → α} {read : α → Option β}
    (unread : ∀ item, read (change item) = read item) (items : List α) (n : Nat) :
    (items.modify n change).filterMap read = items.filterMap read := by
  induction items generalizing n with
  | nil => simp
  | cons item items ih =>
      cases n with
      | zero => simp [List.filterMap_cons, unread]
      | succ n => simp [List.filterMap_cons, ih]

end ClotoCore.Sequence
