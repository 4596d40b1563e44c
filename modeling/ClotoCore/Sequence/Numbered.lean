import Mathlib.Data.List.Range
import Mathlib.Data.List.TakeWhile

/-!
# Numbered items and pages

Items that carry their place in a sequence, counted from one.  Whether an item
beyond a number has been dropped from the front can be told from the first item
that is left, and a page of ascending items is everything up to its last one.
-/

namespace ClotoCore.Sequence

universe u

variable {α : Type u} {number : α → Nat} {items first second : List α} {count : Nat} {item : α}

/-- The items carry the numbers from one to `count`, in order. -/
def Numbered (number : α → Nat) (items : List α) (count : Nat) : Prop :=
  items.map number = List.range' 1 count

/-- The numbers ascend. -/
def Ascending (number : α → Nat) (items : List α) : Prop :=
  items.Pairwise fun earlier later => number earlier < number later

/-- An item comes behind ascending ones exactly if it is beyond each of them. -/
theorem ascending_concat_iff :
    Ascending number (items ++ [item]) ↔
      Ascending number items ∧ ∀ other ∈ items, number other < number item := by
  unfold Ascending
  rw [List.pairwise_append]
  constructor
  · rintro ⟨ascending, -, apart⟩
    exact ⟨ascending, fun other mem => apart other mem item (List.mem_singleton.mpr rfl)⟩
  · rintro ⟨ascending, before⟩
    refine ⟨ascending, List.pairwise_singleton _ _, ?_⟩
    intro other mem last same
    rw [List.mem_singleton.mp same]
    exact before other mem

/-- Ascending items are told apart by their numbers. -/
theorem Ascending.eq_of_number (ascending : Ascending number items) {other : α}
    (mem : item ∈ items) (otherMem : other ∈ items) (same : number item = number other) :
    item = other := by
  induction items with
  | nil => cases mem
  | cons head rest ih =>
      rcases List.pairwise_cons.mp ascending with ⟨before, restAscending⟩
      rcases List.mem_cons.mp mem with rfl | inRest
      · rcases List.mem_cons.mp otherMem with rfl | otherInRest
        · rfl
        · exact absurd same (Nat.ne_of_lt (before other otherInRest))
      · rcases List.mem_cons.mp otherMem with rfl | otherInRest
        · exact absurd same.symm (Nat.ne_of_lt (before item inRest))
        · exact ih restAscending inRest otherInRest

/-- An item of a list that is extended is an item before, or the new one. -/
theorem getElem?_concat_cases {last : α} {index : Nat}
    (there : (items ++ [last])[index]? = some item) :
    items[index]? = some item ∨ index = items.length ∧ item = last := by
  rcases Nat.lt_or_ge index items.length with within | behind
  · left
    exact (List.getElem?_append_left within).symm.trans there
  · right
    rw [List.getElem?_append_right behind] at there
    rcases List.getElem?_eq_some_iff.mp there with ⟨first, itemEq⟩
    rw [List.length_singleton] at first
    exact ⟨by omega, by simpa using itemEq.symm⟩

/-- A list that is extended keeps its items where they are. -/
theorem getElem?_concat_of_some {last : α} {index : Nat} (there : items[index]? = some item) :
    (items ++ [last])[index]? = some item := by
  rcases List.getElem?_eq_some_iff.mp there with ⟨within, -⟩
  exact (List.getElem?_append_left within).trans there

/-- An item of a list with one item replaced is the new one, or one at another place. -/
theorem getElem?_set_cases {put : α} {place index : Nat}
    (there : (items.set place put)[index]? = some item) :
    index = place ∧ item = put ∨ index ≠ place ∧ items[index]? = some item := by
  rw [List.getElem?_set] at there
  split at there
  · next same =>
    split at there
    · left
      exact ⟨same.symm, by simpa using there.symm⟩
    · cases there
  · next other =>
    right
    exact ⟨fun same => other same.symm, there⟩

/-! ## Numbered items -/

theorem Numbered.nil : Numbered number ([] : List α) 0 :=
  rfl

theorem Numbered.ascending (numbered : Numbered number items count) :
    Ascending number items := by
  have pairwise : (items.map number).Pairwise (· < ·) := by
    rw [numbered]
    exact List.pairwise_lt_range'
  exact List.pairwise_map.mp pairwise

theorem Numbered.length (numbered : Numbered number items count) : items.length = count := by
  have lengths := congrArg List.length numbered
  rwa [List.length_map, List.length_range'] at lengths

theorem Numbered.le (numbered : Numbered number items count) (mem : item ∈ items) :
    number item ≤ count := by
  have inRange : number item ∈ List.range' 1 count := by
    rw [← numbered]
    exact List.mem_map_of_mem mem
  rw [List.mem_range'_1] at inRange
  omega

theorem Numbered.getElem (numbered : Numbered number items count) {index : Nat}
    (inside : index < items.length) : number items[index] = index + 1 := by
  have same : (items.map number)[index]? = (List.range' 1 count)[index]? :=
    congrArg (fun numbers => numbers[index]?) numbered
  have within : index < count := by
    rw [← numbered.length]
    exact inside
  rw [List.getElem?_map, List.getElem?_eq_getElem inside, Option.map_some,
    List.getElem?_range' within, Option.some.injEq] at same
  omega

/-- The next item has the next number. -/
theorem Numbered.concat (numbered : Numbered number items count) (next : number item = count + 1) :
    Numbered number (items ++ [item]) (count + 1) := by
  unfold Numbered at *
  rw [List.map_append, numbered, List.map_singleton, next, List.range'_1_concat, Nat.add_comm 1]

/-- An item beyond a number is among the first ones exactly if there are more of these
than the number says. -/
theorem Numbered.exists_beyond_iff (numbered : Numbered number (first ++ second) count)
    (bound : Nat) : (∃ item ∈ first, bound < number item) ↔ bound < first.length := by
  constructor
  · rintro ⟨item, mem, beyond⟩
    rcases List.getElem_of_mem mem with ⟨index, inside, rfl⟩
    have within : index < (first ++ second).length := by
      rw [List.length_append]
      omega
    have place := numbered.getElem within
    rw [List.getElem_append_left inside] at place
    omega
  · intro more
    have inside : first.length - 1 < first.length := by omega
    have within : first.length - 1 < (first ++ second).length := by
      rw [List.length_append]
      omega
    refine ⟨first[first.length - 1], List.getElem_mem inside, ?_⟩
    have place := numbered.getElem within
    rw [List.getElem_append_left inside] at place
    omega

/-- The first item that is left tells how many are gone. -/
theorem Numbered.head (numbered : Numbered number (first ++ item :: second) count) :
    number item = first.length + 1 := by
  have within : first.length < (first ++ item :: second).length := by
    rw [List.length_append, List.length_cons]
    omega
  have place := numbered.getElem within
  simpa using place

/-! ## The last items -/

/-- So many items from the end. -/
def lastItems (bound : Nat) (items : List α) : List α :=
  items.drop (items.length - bound)

theorem length_lastItems_le (bound : Nat) : (lastItems bound items).length ≤ bound := by
  rw [lastItems, List.length_drop]
  omega

/-- An item that comes after the last ones is the last. -/
theorem lastItems_concat (bound : Nat) :
    lastItems bound (lastItems bound items ++ [item]) = lastItems bound (items ++ [item]) := by
  simp only [lastItems, List.length_append, List.length_drop, List.length_singleton]
  rw [← List.drop_append_of_le_length (Nat.sub_le _ _), List.drop_drop]
  congr 1
  omega

theorem mem_lastItems_iff (bound : Nat) :
    item ∈ lastItems bound items ↔
      ∃ before after, items = before ++ item :: after ∧ after.length < bound := by
  constructor
  · intro mem
    have short : (lastItems bound items).length ≤ bound := length_lastItems_le bound
    rcases List.append_of_mem mem with ⟨middle, after, split⟩
    refine ⟨items.take (items.length - bound) ++ middle, after, ?_, ?_⟩
    · rw [List.append_assoc, ← split, lastItems, List.take_append_drop]
    · rw [split, List.length_append, List.length_cons] at short
      omega
  · rintro ⟨before, after, rfl, short⟩
    rw [lastItems, List.drop_append_of_le_length]
    · exact List.mem_append_right _ List.mem_cons_self
    · simp only [List.length_append, List.length_cons]
      omega

/-! ## Dropping from the front -/

/-- Dropping from the front as long as a test is met, and then all but the last items,
leaves nothing that meets the test exactly if among the last items only those meet it
that are behind no other item. -/
theorem lastItems_dropWhile_iff (items : List α) (bound : Nat) (meets : α → Bool) :
    (∀ item ∈ lastItems bound (items.dropWhile meets), meets item = false) ↔
      ∀ before item after, items = before ++ item :: after → after.length < bound →
        meets item = true → ∀ other ∈ before, meets other = true := by
  constructor
  · intro clean before item after split short here other mem
    by_contra fresh
    have stops : ¬ (before.dropWhile meets).isEmpty = true := by
      intro all
      rw [List.isEmpty_iff, List.dropWhile_eq_nil_iff] at all
      exact fresh (all other mem)
    have left : items.dropWhile meets = before.dropWhile meets ++ item :: after := by
      rw [split, List.dropWhile_append, if_neg stops]
    have gone := clean item ((mem_lastItems_iff bound).mpr ⟨_, after, left, short⟩)
    rw [gone] at here
    cases here
  · intro only item mem
    rcases (mem_lastItems_iff bound).mp mem with ⟨before, after, left, short⟩
    by_contra meetsItem
    rw [Bool.not_eq_false] at meetsItem
    have split : items = (items.takeWhile meets ++ before) ++ item :: after := by
      rw [List.append_assoc, ← left, List.takeWhile_append_dropWhile]
    have nonempty : items.dropWhile meets ≠ [] := by simp [left]
    have front := List.head_dropWhile_not meets nonempty
    have frontMem : (items.dropWhile meets).head nonempty ∈ before ++ [item] := by
      simp only [left]
      cases before <;> simp
    rcases List.mem_append.mp frontMem with here | here
    · have meetsFront := only _ item after split short meetsItem _ (List.mem_append_right _ here)
      rw [front] at meetsFront
      cases meetsFront
    · rw [List.mem_singleton.mp here, meetsItem] at front
      cases front

/-! ## Pages -/

theorem Ascending.filter (ascending : Ascending number items) (keep : α → Bool) :
    Ascending number (items.filter keep) :=
  List.Pairwise.filter keep ascending

/-- What is not beyond the last item of a page is on it. -/
theorem Ascending.mem_take (ascending : Ascending number items) {limit : Nat}
    (mem : item ∈ items) {last : α} (lastMem : last ∈ items.take limit)
    (bound : number item ≤ number last) : item ∈ items.take limit := by
  rw [← List.take_append_drop limit items] at mem ascending
  rcases List.mem_append.mp mem with here | later
  · exact here
  · have beyond := (List.pairwise_append.mp ascending).2.2 last lastMem item later
    omega

/-- The last item of a page is the furthest on it. -/
theorem Ascending.le_getLast (ascending : Ascending number items) (mem : item ∈ items)
    {last : α} (lastEq : items.getLast? = some last) : number item ≤ number last := by
  rcases List.getLast?_eq_some_iff.mp lastEq with ⟨before, rfl⟩
  rcases List.mem_append.mp mem with earlier | same
  · exact Nat.le_of_lt
      ((List.pairwise_append.mp ascending).2.2 item earlier last (List.mem_singleton.mpr rfl))
  · cases List.mem_singleton.mp same
    exact Nat.le_refl _

end ClotoCore.Sequence
