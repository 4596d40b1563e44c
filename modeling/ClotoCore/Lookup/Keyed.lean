import Mathlib.Data.List.Nodup

/-!
# A map whose values hold their keys

At most one item has each key.  Inserting an item overwrites the one that has
its key.
-/

namespace ClotoCore.Lookup

universe u v

variable {α : Type u} {β : Type v} [DecidableEq β]

/-- Items of which no two have one key. -/
structure Keyed (key : α → β) where
  items : List α
  distinct : (items.map key).Nodup

namespace Keyed

variable {key : α → β} {table : Keyed key} {item other : α} {k : β}

/-- No items. -/
def empty (key : α → β) : Keyed key where
  items := []
  distinct := List.nodup_nil

/-- The items without the one of a key. -/
def remove (table : Keyed key) (k : β) : Keyed key where
  items := table.items.filter fun item => key item != k
  distinct := table.distinct.sublist (List.filter_sublist.map key)

theorem mem_remove_iff : other ∈ (table.remove k).items ↔ other ∈ table.items ∧ key other ≠ k := by
  simp [remove]

/-- An item, and the others that do not have its key. -/
def insert (table : Keyed key) (item : α) : Keyed key where
  items := (table.remove (key item)).items ++ [item]
  distinct := by
    rw [List.map_append, List.map_singleton]
    apply List.Nodup.append (table.remove (key item)).distinct (List.nodup_singleton _)
    rw [List.disjoint_singleton]
    intro mem
    rcases List.mem_map.mp mem with ⟨other, here, same⟩
    exact (mem_remove_iff.mp here).2 same

/-- The item of a key. -/
def get (table : Keyed key) (k : β) : Option α :=
  table.items.find? fun item => key item == k

theorem get_eq_some_iff : table.get k = some item ↔ item ∈ table.items ∧ key item = k := by
  constructor
  · intro found
    have same := List.find?_some found
    exact ⟨List.mem_of_find?_eq_some found, by simpa using same⟩
  · rintro ⟨mem, rfl⟩
    cases found : table.get (key item) with
    | none =>
        have absent := List.find?_eq_none.mp found item mem
        simp at absent
    | some other =>
        have same : key other = key item := by simpa using List.find?_some found
        rw [List.inj_on_of_nodup_map table.distinct (List.mem_of_find?_eq_some found) mem same]

/-- Where no item has the key, nothing is overwritten. -/
theorem insert_items (fresh : ∀ other ∈ table.items, key other ≠ key item) :
    (table.insert item).items = table.items ++ [item] := by
  apply congrArg (· ++ [item])
  apply List.filter_eq_self.mpr
  intro other mem
  simpa using fresh other mem

/-- No other item has the key of an item. -/
theorem filter_key (mem : item ∈ table.items) :
    (table.items.filter fun other => key other == key item) = [item] := by
  rcases List.append_of_mem mem with ⟨before, after, split⟩
  have distinct := table.distinct
  rw [split, List.map_append, List.map_cons] at distinct
  rcases List.nodup_append.mp distinct with ⟨-, distinctAfter, apart⟩
  have noneBefore : (before.filter fun other => key other == key item) = [] := by
    apply List.filter_eq_nil_iff.mpr
    intro other here
    simpa using apart (key other) (List.mem_map_of_mem here) (key item) List.mem_cons_self
  have noneAfter : (after.filter fun other => key other == key item) = [] := by
    apply List.filter_eq_nil_iff.mpr
    intro other here same
    have sameKey : key other = key item := by simpa using same
    apply (List.nodup_cons.mp distinctAfter).1
    rw [← sameKey]
    exact List.mem_map_of_mem here
  rw [split, List.filter_append, List.filter_cons, noneBefore, noneAfter]
  simp

/-- Of the items that meet a test, one or none has the key of an item. -/
theorem filter_filter_key (mem : item ∈ table.items) (meets : α → Bool) :
    ((table.items.filter meets).filter fun other => key other == key item) =
      if meets item = true then [item] else [] := by
  rw [List.filter_comm, filter_key mem, List.filter_singleton]
  cases meets item <;> rfl

end Keyed

end ClotoCore.Lookup
