import Mathlib.Data.List.Induction
import Mathlib.Logic.Function.Basic

/-!
# Writing over a store

Values are written to the places of a store one after the other, each over what its
place held.  A place ends with the last value written to it; a place nothing is
written to keeps what it held.
-/

namespace ClotoCore.Lookup

universe u v

variable {α : Type u} {β : Type v} [DecidableEq α]

/-- Write every value to its place, in order. -/
def overwrite (store : α → β) : List (α × β) → α → β
  | [] => store
  | write :: rest => overwrite (Function.update store write.1 write.2) rest

variable {store : α → β} {writes : List (α × β)} {place : α}

theorem overwrite_append (first second : List (α × β)) :
    overwrite store (first ++ second) = overwrite (overwrite store first) second := by
  induction first generalizing store with
  | nil => rfl
  | cons write rest ih => exact ih

/-- A place nothing is written to keeps what it held. -/
theorem overwrite_of_not_mem (untouched : place ∉ writes.map Prod.fst) :
    overwrite store writes place = store place := by
  induction writes generalizing store with
  | nil => rfl
  | cons write rest ih =>
      rw [List.map_cons, List.mem_cons, not_or] at untouched
      rw [overwrite, ih untouched.2, Function.update_of_ne untouched.1]

/-- A place ends with the last value written to it. -/
theorem overwrite_of_last {before after : List (α × β)} {value : β}
    (last : place ∉ after.map Prod.fst) :
    overwrite store (before ++ (place, value) :: after) place = value := by
  rw [overwrite_append, overwrite, overwrite_of_not_mem last, Function.update_self]

end ClotoCore.Lookup
