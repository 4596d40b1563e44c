import ClotoCore.Lookup.Keyed
import Mathlib.Algebra.GroupWithZero.Nat
import Mathlib.Algebra.Order.BigOperators.Group.List
import Mathlib.Algebra.Order.Group.Nat
import Mathlib.Data.List.MinMax
import Mathlib.Order.Defs.LinearOrder

/-!
# Eviction by last use

A table whose items have a weight is brought within a budget: while the weights exceed it,
the item is removed that was used least recently, of those that are not exempt.  Which of
several that were used at one time is left open, so the keys that are removed are given.
-/

namespace ClotoCore.Lookup

universe u v w

variable {α : Type u} {β : Type v} {τ : Type w} [DecidableEq β] [LinearOrder τ] {key : α → β}

/-- What is known of the items: their weight, when they were used last, which keys are
exempt, and the budget. -/
structure Eviction (α : Type u) (β : Type v) (τ : Type w) where
  weight : α → Nat
  used : α → τ
  exempt : β → Bool
  budget : Nat

namespace Eviction

variable (rule : Eviction α β τ)

/-- The weight of the items that meet a test. -/
def weightOf (meets : α → Bool) (table : Keyed key) : Nat :=
  ((table.items.filter meets).map rule.weight).sum

/-- The weight of all items. -/
def total (table : Keyed key) : Nat :=
  (table.items.map rule.weight).sum

/-- An item that may be removed next. -/
def Oldest (table : Keyed key) (item : α) : Prop :=
  rule.exempt (key item) = false ∧
    ∀ other ∈ table.items, rule.exempt (key other) = false → rule.used item ≤ rule.used other

instance (table : Keyed key) (item : α) : Decidable (rule.Oldest table item) :=
  inferInstanceAs <| Decidable <| rule.exempt (key item) = false ∧
    ∀ other ∈ table.items, rule.exempt (key other) = false → rule.used item ≤ rule.used other

/-- The table is within the budget, or all that is left is exempt. -/
def Settled (table : Keyed key) : Prop :=
  rule.total table ≤ rule.budget ∨ ∀ item ∈ table.items, rule.exempt (key item) = true

instance (table : Keyed key) : Decidable (rule.Settled table) :=
  inferInstanceAs <| Decidable <|
    rule.total table ≤ rule.budget ∨ ∀ item ∈ table.items, rule.exempt (key item) = true

/-- Remove the items of these keys, one after the other, until the table is settled. -/
def evict : List β → Keyed key → Option (Keyed key)
  | [], table => if rule.Settled table then some table else none
  | k :: rest, table =>
      match table.get k with
      | some item =>
          if rule.budget < rule.total table ∧ rule.Oldest table item then
            evict rest (table.remove k)
          else none
      | none => none

/-- The items that an item may be removed before: the exempt ones, and those that were used
no earlier. -/
def behind (key : α → β) (item other : α) : Bool :=
  rule.exempt (key other) || decide (rule.used item ≤ rule.used other)

end Eviction

namespace Eviction

variable {rule : Eviction α β τ} {table next : Keyed key} {item other : α} {k : β} {keys : List β}

theorem evict_cons_eq_some_iff :
    rule.evict (k :: keys) table = some next ↔
      ∃ item, table.get k = some item ∧ rule.budget < rule.total table ∧
        rule.Oldest table item ∧ rule.evict keys (table.remove k) = some next := by
  rw [evict]
  cases found : table.get k with
  | none => simp
  | some item =>
      by_cases may : rule.budget < rule.total table ∧ rule.Oldest table item
      · simp [may]
      · simp only [if_neg may, reduceCtorEq, Option.some.injEq, exists_eq_left', false_iff]
        rintro ⟨exceeds, oldest, -⟩
        exact may ⟨exceeds, oldest⟩

theorem evict_nil_eq_some_iff :
    rule.evict [] table = some next ↔ rule.Settled table ∧ table = next := by
  rw [evict]
  by_cases settled : rule.Settled table
  · simp [settled]
  · simp [settled]

theorem settled_of_evict (evicted : rule.evict keys table = some next) : rule.Settled next := by
  induction keys generalizing table with
  | nil =>
      rcases evict_nil_eq_some_iff.mp evicted with ⟨settled, rfl⟩
      exact settled
  | cons k keys ih =>
      rcases evict_cons_eq_some_iff.mp evicted with ⟨item, -, -, -, rest⟩
      exact ih rest

theorem sublist_of_evict (evicted : rule.evict keys table = some next) :
    next.items.Sublist table.items := by
  induction keys generalizing table with
  | nil =>
      rcases evict_nil_eq_some_iff.mp evicted with ⟨-, rfl⟩
      exact List.Sublist.refl _
  | cons k keys ih =>
      rcases evict_cons_eq_some_iff.mp evicted with ⟨item, -, -, -, rest⟩
      exact (ih rest).trans List.filter_sublist

theorem mem_of_evict (evicted : rule.evict keys table = some next) (mem : item ∈ next.items) :
    item ∈ table.items :=
  (sublist_of_evict evicted).subset mem

/-- What is exempt stays. -/
theorem mem_evict_of_exempt (evicted : rule.evict keys table = some next)
    (mem : item ∈ table.items) (exempt : rule.exempt (key item) = true) : item ∈ next.items := by
  induction keys generalizing table with
  | nil =>
      rcases evict_nil_eq_some_iff.mp evicted with ⟨-, rfl⟩
      exact mem
  | cons k keys ih =>
      rcases evict_cons_eq_some_iff.mp evicted with ⟨oldest, found, -, may, rest⟩
      have here := (Keyed.get_eq_some_iff.mp found).2
      apply ih rest
      apply Keyed.mem_remove_iff.mpr ⟨mem, ?_⟩
      intro same
      rw [← here] at same
      rw [same, may.1] at exempt
      cases exempt

/-- What is removed was used no later than what stays and is not exempt. -/
theorem used_le_of_evict (evicted : rule.evict keys table = some next)
    (mem : item ∈ table.items) (gone : item ∉ next.items) (stays : other ∈ next.items)
    (subject : rule.exempt (key other) = false) : rule.used item ≤ rule.used other := by
  induction keys generalizing table with
  | nil =>
      rcases evict_nil_eq_some_iff.mp evicted with ⟨-, rfl⟩
      exact absurd mem gone
  | cons k keys ih =>
      rcases evict_cons_eq_some_iff.mp evicted with ⟨oldest, found, -, may, rest⟩
      rcases Keyed.get_eq_some_iff.mp found with ⟨oldestMem, here⟩
      by_cases same : key item = k
      · have isOldest : item = oldest :=
          List.inj_on_of_nodup_map table.distinct mem oldestMem (same.trans here.symm)
        rw [isOldest]
        exact may.2 other (mem_of_evict evicted stays) subject
      · exact ih rest (Keyed.mem_remove_iff.mpr ⟨mem, same⟩)

omit [LinearOrder τ] in
theorem weightOf_remove_le (meets : α → Bool) :
    rule.weightOf meets (table.remove k) ≤ rule.weightOf meets table := by
  have sublist : ((table.remove k).items.filter meets).Sublist (table.items.filter meets) :=
    List.Sublist.filter meets List.filter_sublist
  exact (sublist.map rule.weight).sum_le_sum fun _ _ => Nat.zero_le _

/-- An item stays where it fits into the budget with all that it may be removed before. -/
theorem mem_evict_of_fits (evicted : rule.evict keys table = some next)
    (mem : item ∈ table.items)
    (fits : rule.weightOf (rule.behind key item) table ≤ rule.budget) : item ∈ next.items := by
  induction keys generalizing table with
  | nil =>
      rcases evict_nil_eq_some_iff.mp evicted with ⟨-, rfl⟩
      exact mem
  | cons k keys ih =>
      rcases evict_cons_eq_some_iff.mp evicted with ⟨oldest, found, exceeds, may, rest⟩
      rcases Keyed.get_eq_some_iff.mp found with ⟨oldestMem, here⟩
      apply ih rest
      · apply Keyed.mem_remove_iff.mpr ⟨mem, ?_⟩
        intro same
        -- all that is left is behind the oldest item, and that exceeds the budget
        have isOldest : item = oldest :=
          List.inj_on_of_nodup_map table.distinct mem oldestMem (same.trans here.symm)
        have all : table.items.filter (rule.behind key item) = table.items := by
          apply List.filter_eq_self.mpr
          intro other otherMem
          unfold behind
          cases exempt : rule.exempt (key other) with
          | true => rfl
          | false =>
              rw [isOldest]
              simpa using may.2 other otherMem exempt
        rw [weightOf, all] at fits
        exact absurd fits (Nat.not_le.mpr exceeds)
      · exact (weightOf_remove_le _).trans fits

omit [LinearOrder τ] in
theorem length_remove_lt (mem : item ∈ table.items) (here : key item = k) :
    (table.remove k).items.length < table.items.length := by
  apply List.length_filter_lt_length_iff_exists.mpr
  exact ⟨item, mem, by simpa using here⟩

omit [DecidableEq β] in
/-- Of the items that are not exempt, one was used least recently. -/
theorem exists_oldest (mem : item ∈ table.items) (subject : rule.exempt (key item) = false) :
    ∃ oldest ∈ table.items, rule.Oldest table oldest := by
  have candidate : item ∈ table.items.filter fun item => !rule.exempt (key item) :=
    List.mem_filter.mpr ⟨mem, by simpa using subject⟩
  cases least : (table.items.filter fun item => !rule.exempt (key item)).argmin rule.used with
  | none =>
      rw [List.argmin_eq_none.mp least] at candidate
      cases candidate
  | some oldest =>
      rcases List.mem_filter.mp (List.argmin_mem least) with ⟨oldestMem, free⟩
      refine ⟨oldest, oldestMem, by simpa using free, ?_⟩
      intro other otherMem otherFree
      exact List.le_of_mem_argmin (List.mem_filter.mpr ⟨otherMem, by simpa using otherFree⟩) least

/-- There is always a way to settle a table. -/
theorem exists_evict (rule : Eviction α β τ) (table : Keyed key) :
    ∃ keys next, rule.evict keys table = some next := by
  generalize size : table.items.length = n
  induction n using Nat.strongRecOn generalizing table with
  | ind n ih =>
      by_cases settled : rule.Settled table
      · exact ⟨[], table, evict_nil_eq_some_iff.mpr ⟨settled, rfl⟩⟩
      · have ⟨exceeds, someFree⟩ := not_or.mp settled
        have ⟨free, freeMem, subject⟩ : ∃ free ∈ table.items, rule.exempt (key free) = false := by
          simpa using someFree
        rcases exists_oldest freeMem subject with ⟨oldest, mem, isOldest⟩
        have smaller := length_remove_lt mem rfl
        rw [size] at smaller
        rcases ih _ smaller (table.remove (key oldest)) rfl with ⟨keys, next, evicted⟩
        have found := Keyed.get_eq_some_iff.mpr ⟨mem, rfl⟩
        exact ⟨key oldest :: keys, next, evict_cons_eq_some_iff.mpr
          ⟨oldest, found, Nat.not_le.mp exceeds, isOldest, evicted⟩⟩

omit [DecidableEq β] [LinearOrder τ] in
theorem weightOf_le_total (meets : α → Bool) : rule.weightOf meets table ≤ rule.total table :=
  (List.filter_sublist.map rule.weight).sum_le_sum fun _ _ => Nat.zero_le _

/-- An item that does not fit into the budget with all that it may be removed before is
removed in one of the ways to settle the table. -/
theorem exists_evict_of_not_fits (mem : item ∈ table.items)
    (subject : rule.exempt (key item) = false)
    (exceeds : rule.budget < rule.weightOf (rule.behind key item) table) :
    ∃ keys next, rule.evict keys table = some next ∧ item ∉ next.items := by
  generalize size : table.items.length = n
  induction n using Nat.strongRecOn generalizing table with
  | ind n ih =>
      have more : rule.budget < rule.total table := exceeds.trans_le (weightOf_le_total _)
      by_cases first : rule.Oldest table item
      · rcases exists_evict rule (table.remove (key item)) with ⟨keys, next, evicted⟩
        have found := Keyed.get_eq_some_iff.mpr ⟨mem, rfl⟩
        refine ⟨key item :: keys, next,
          evict_cons_eq_some_iff.mpr ⟨item, found, more, first, evicted⟩, ?_⟩
        intro stays
        exact (Keyed.mem_remove_iff.mp (mem_of_evict evicted stays)).2 rfl
      · rcases exists_oldest mem subject with ⟨oldest, oldestMem, isOldest⟩
        -- an older item goes first, and it does not count
        have older : rule.used oldest < rule.used item := by
          apply lt_of_not_ge
          intro noLater
          apply first
          exact ⟨subject, fun other otherMem free =>
            noLater.trans (isOldest.2 other otherMem free)⟩
        have differ : key item ≠ key oldest := by
          intro same
          rw [List.inj_on_of_nodup_map table.distinct mem oldestMem same] at older
          exact lt_irrefl _ older
        have same : rule.weightOf (rule.behind key item) (table.remove (key oldest)) =
            rule.weightOf (rule.behind key item) table := by
          unfold weightOf Keyed.remove
          rw [List.filter_filter]
          congr 2
          apply List.filter_congr
          intro other otherMem
          by_cases isThat : key other = key oldest
          · rw [List.inj_on_of_nodup_map table.distinct otherMem oldestMem isThat]
            simp [behind, isOldest.1, not_le.mpr older]
          · simp [isThat]
        have smaller := length_remove_lt oldestMem rfl
        rw [size] at smaller
        rw [← same] at exceeds
        rcases ih _ smaller (Keyed.mem_remove_iff.mpr ⟨mem, differ⟩) exceeds rfl with
          ⟨keys, next, evicted, gone⟩
        have found := Keyed.get_eq_some_iff.mpr ⟨oldestMem, rfl⟩
        exact ⟨key oldest :: keys, next,
          evict_cons_eq_some_iff.mpr ⟨oldest, found, more, isOldest, evicted⟩, gone⟩

end Eviction

end ClotoCore.Lookup
