import Mathlib.Data.List.Basic

/-!
# Rows by their owner

Dropping the rows of one owner leaves none of that owner and all of the others.
-/

namespace ClotoCore.Lookup

universe u v

variable {α : Type u} {β : Type v} [DecidableEq β] {owner : α → β}
    {rows more : List α} {k other : β}

/-- The rows of an owner. -/
def ownedBy (owner : α → β) (k : β) (rows : List α) : List α :=
  rows.filter fun row => owner row == k

/-- The rows without those of an owner. -/
def dropOwned (owner : α → β) (k : β) (rows : List α) : List α :=
  rows.filter fun row => owner row != k

theorem ownedBy_eq_nil_iff : ownedBy owner k rows = [] ↔ ∀ row ∈ rows, owner row ≠ k := by
  simp [ownedBy]

@[simp]
theorem ownedBy_dropOwned_self : ownedBy owner k (dropOwned owner k rows) = [] := by
  rw [ownedBy_eq_nil_iff]
  intro row mem
  simpa using (List.mem_filter.mp mem).2

theorem ownedBy_dropOwned (differ : other ≠ k) :
    ownedBy owner other (dropOwned owner k rows) = ownedBy owner other rows := by
  unfold ownedBy dropOwned
  rw [List.filter_filter]
  apply List.filter_congr
  intro row _
  by_cases same : owner row = other
  · simp [same, differ]
  · simp [same]

@[simp]
theorem ownedBy_append :
    ownedBy owner k (rows ++ more) = ownedBy owner k rows ++ ownedBy owner k more :=
  List.filter_append ..

theorem ownedBy_eq_self_iff : ownedBy owner k rows = rows ↔ ∀ row ∈ rows, owner row = k := by
  simp [ownedBy, List.filter_eq_self]

end ClotoCore.Lookup
