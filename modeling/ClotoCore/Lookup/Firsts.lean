import Mathlib.Data.List.Nodup

/-!
# The first item of each key

A list is extended by the items whose key it does not have yet, in the order in
which they come.  It keeps one item for each key, the first that came.
-/

namespace ClotoCore.Lookup

universe u v

variable {α : Type u} {β : Type v} [DecidableEq β] {key : α → β} {kept items : List α} {item : α}

/-- Add an item whose key is new. -/
def addNew (key : α → β) (kept : List α) (item : α) : List α :=
  if key item ∈ kept.map key then kept else kept ++ [item]

/-- Add all items whose key is new when they come. -/
def addFirsts (key : α → β) (kept items : List α) : List α :=
  items.foldl (addNew key) kept

theorem addFirsts_cons :
    addFirsts key kept (item :: items) = addFirsts key (addNew key kept item) items :=
  rfl

theorem addFirsts_append (more : List α) :
    addFirsts key kept (items ++ more) = addFirsts key (addFirsts key kept items) more :=
  List.foldl_append

theorem mem_addNew {other : α} (mem : other ∈ addNew key kept item) :
    other ∈ kept ∨ other = item ∧ key other ∉ kept.map key := by
  unfold addNew at mem
  split at mem
  · exact .inl mem
  · rename_i fresh
    rcases List.mem_append.mp mem with here | new
    · exact .inl here
    · cases List.mem_singleton.mp new
      exact .inr ⟨rfl, fresh⟩

theorem subset_addNew : kept ⊆ addNew key kept item := by
  unfold addNew
  split
  · exact List.Subset.refl kept
  · exact List.subset_append_left kept [item]

/-- What is there stays. -/
theorem subset_addFirsts : kept ⊆ addFirsts key kept items := by
  induction items generalizing kept with
  | nil => exact List.Subset.refl kept
  | cons item rest ih =>
      rw [addFirsts_cons]
      exact List.Subset.trans subset_addNew ih

/-- What is added is one of the items, with a key that was not there. -/
theorem mem_addFirsts {other : α} (mem : other ∈ addFirsts key kept items) :
    other ∈ kept ∨ other ∈ items ∧ key other ∉ kept.map key := by
  induction items generalizing kept with
  | nil => exact .inl mem
  | cons item rest ih =>
      rw [addFirsts_cons] at mem
      rcases ih mem with here | ⟨later, fresh⟩
      · rcases mem_addNew here with before | ⟨rfl, fresh⟩
        · exact .inl before
        · exact .inr ⟨List.mem_cons_self, fresh⟩
      · refine .inr ⟨List.mem_cons_of_mem item later, ?_⟩
        intro old
        exact fresh (List.map_subset key subset_addNew old)

/-- Every key that comes is there in the end. -/
theorem key_mem_addFirsts (mem : item ∈ items) : key item ∈ (addFirsts key kept items).map key := by
  induction items generalizing kept with
  | nil => cases mem
  | cons first rest ih =>
      rw [addFirsts_cons]
      rcases List.mem_cons.mp mem with rfl | later
      · apply List.map_subset key subset_addFirsts
        unfold addNew
        split
        · assumption
        · simp
      · exact ih later

theorem nodup_addNew (distinct : (kept.map key).Nodup) :
    ((addNew key kept item).map key).Nodup := by
  unfold addNew
  split
  · exact distinct
  · rename_i fresh
    rw [List.map_append, List.map_singleton, ← List.concat_eq_append]
    exact List.Nodup.concat fresh distinct

/-- The keys stay distinct. -/
theorem nodup_addFirsts (distinct : (kept.map key).Nodup) :
    ((addFirsts key kept items).map key).Nodup := by
  induction items generalizing kept with
  | nil => exact distinct
  | cons item rest ih =>
      rw [addFirsts_cons]
      exact ih (nodup_addNew distinct)

end ClotoCore.Lookup
