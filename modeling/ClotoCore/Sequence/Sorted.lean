import Mathlib.Data.List.Pairwise
import Mathlib.Order.Lattice

/-!
# Lists in the order of a key

A list that is sorted by a key, and what holds of each two of its items in their order.
Where items of one key are related, this is what holds of each two items whose keys are
in order.
-/

namespace ClotoCore.Sequence

universe u v

variable {α : Type u} {β : Type v} [LinearOrder β] (key : α → β)

/-- Sort a list by a key; items of one key keep their order. -/
def sortBy (items : List α) : List α :=
  items.mergeSort fun first second => decide (key first ≤ key second)

variable {key} {items : List α}

theorem mem_sortBy {item : α} : item ∈ sortBy key items ↔ item ∈ items :=
  List.mem_mergeSort

theorem pairwise_sortBy (key : α → β) (items : List α) :
    (sortBy key items).Pairwise fun first second => key first ≤ key second := by
  have sorted : (sortBy key items).Pairwise fun first second =>
      decide (key first ≤ key second) = true := by
    apply List.pairwise_mergeSort
    · intro first second third left right
      rw [decide_eq_true_eq] at left right ⊢
      exact le_trans left right
    · intro first second
      rw [Bool.or_eq_true, decide_eq_true_eq, decide_eq_true_eq]
      exact le_total (key first) (key second)
  exact sorted.imp fun ordered => of_decide_eq_true ordered

theorem perm_sortBy (key : α → β) (items : List α) : (sortBy key items).Perm items :=
  List.mergeSort_perm items _

/-- Items of one key keep their order. -/
theorem filter_sortBy (key : α → β) (items : List α) (k : β) :
    (sortBy key items).filter (fun item => key item == k) =
      items.filter fun item => key item == k := by
  have alike : (items.filter fun item => key item == k).Pairwise fun first second =>
      decide (key first ≤ key second) = true := by
    refine List.pairwise_of_forall_mem_list fun first firstMem second secondMem => ?_
    have firstKey := (List.mem_filter.mp firstMem).2
    have secondKey := (List.mem_filter.mp secondMem).2
    rw [beq_iff_eq] at firstKey secondKey
    rw [firstKey, secondKey, decide_eq_true_eq]
  have inside : (items.filter fun item => key item == k).Sublist (sortBy key items) := by
    refine List.sublist_mergeSort ?_ ?_ alike List.filter_sublist
    · intro first second third left right
      rw [decide_eq_true_eq] at left right ⊢
      exact le_trans left right
    · intro first second
      rw [Bool.or_eq_true, decide_eq_true_eq, decide_eq_true_eq]
      exact le_total (key first) (key second)
  have kept := inside.filter fun item => key item == k
  rw [List.filter_filter] at kept
  simp only [Bool.and_self] at kept
  exact (kept.eq_of_length ((perm_sortBy key items).filter _).length_eq.symm).symm

/-- Sorting changes nothing exactly if the items are in order. -/
theorem sortBy_eq_self_iff :
    sortBy key items = items ↔ items.Pairwise fun first second => key first ≤ key second := by
  constructor
  · intro same
    rw [← same]
    exact pairwise_sortBy key items
  · intro ordered
    exact List.mergeSort_of_pairwise (ordered.imp fun le => decide_eq_true le)

/-- What holds of each two items of a sorted list is what holds of each two whose keys are
in order, where it holds of those with one key. -/
theorem pairwise_sortBy_iff {Related : α → α → Prop}
    (tied : ∀ first ∈ items, ∀ second ∈ items, key first = key second → Related first second) :
    (sortBy key items).Pairwise Related ↔
      ∀ first ∈ items, ∀ second ∈ items, key first < key second → Related first second := by
  constructor
  · intro related first firstMem second secondMem before
    have both := related.and (pairwise_sortBy key items)
    have firstIn : first ∈ sortBy key items := mem_sortBy.mpr firstMem
    have secondIn : second ∈ sortBy key items := mem_sortBy.mpr secondMem
    rcases List.getElem_of_mem firstIn with ⟨i, iLt, iEq⟩
    rcases List.getElem_of_mem secondIn with ⟨j, jLt, jEq⟩
    rw [List.pairwise_iff_getElem] at both
    rcases Nat.lt_trichotomy i j with earlier | same | later
    · have pair := (both i j iLt jLt earlier).1
      rwa [iEq, jEq] at pair
    · subst same
      rw [iEq] at jEq
      rw [jEq] at before
      exact absurd before (lt_irrefl _)
    · have order := (both j i jLt iLt later).2
      rw [iEq, jEq] at order
      exact absurd before (not_lt.mpr order)
  · intro related
    apply (pairwise_sortBy key items).imp_of_mem
    intro first second firstMem secondMem le
    rcases lt_or_eq_of_le le with before | same
    · exact related first (mem_sortBy.mp firstMem) second (mem_sortBy.mp secondMem) before
    · exact tied first (mem_sortBy.mp firstMem) second (mem_sortBy.mp secondMem) same

/-- What a list loses behind a bound is related to all that is left, which is as much as the
bound allows. -/
theorem related_of_notMem_take {Related : α → α → Prop} {count : Nat} {item : α}
    (ordered : items.Pairwise Related) (mem : item ∈ items) (out : item ∉ items.take count) :
    (items.take count).length = count ∧ ∀ kept ∈ items.take count, Related kept item := by
  rw [← List.take_append_drop count items] at mem ordered
  have behind : item ∈ items.drop count := (List.mem_append.mp mem).resolve_left out
  refine ⟨?_, ?_⟩
  · rw [List.length_take]
    apply Nat.min_eq_left
    have longer : 0 < (items.drop count).length := List.length_pos_of_mem behind
    rw [List.length_drop] at longer
    exact Nat.le_of_lt (Nat.lt_of_sub_pos longer)
  · intro kept here
    exact (List.pairwise_append.mp ordered).2.2 kept here item behind

end ClotoCore.Sequence
