import Mathlib.Data.List.Basic
import Mathlib.Order.Lattice

/-!
# Reading a collection page by page

Items are read newest first, a page at a time, and the next page begins below the
time of the oldest item of the last one.  Items of one time are read in any order.
Such a reader gets everything exactly if the rows fetched for a page can show that
there are more, and no group of items of one time is divided by the end of a page.
-/

namespace ClotoCore.Sequence

universe u v

variable {α : Type u} {κ : Type v} [LinearOrder κ]

/-- One page, and whether the reader is told that there are more. -/
structure Page (α : Type u) where
  items : List α
  more : Bool

/-- How a page is read: the items in the order of their times, as many as fit on a
page, and at most one beyond them to tell whether there are more. -/
structure Paging (α : Type u) (key : α → κ) where
  arrange : List α → List α
  perm : ∀ items, (arrange items).Perm items
  descending : ∀ items, (arrange items).Pairwise fun newer older => key older ≤ key newer
  size : Nat
  positive : 0 < size
  fetched : Nat
  full : size ≤ fetched
  spare : fetched ≤ size + 1

/-- The items before a time. -/
def below (key : α → κ) (bound : κ) (items : List α) : List α :=
  items.filter fun item => key item < bound

variable {key : α → κ}

namespace Paging

variable (paging : Paging α key)

/-- The first page of some items. -/
def page (items : List α) : Page α :=
  let rows := (paging.arrange items).take paging.fetched
  { items := rows.take paging.size
    more := paging.size < rows.length }

/-- Read on as long as there are more. -/
def readAll : Nat → List α → List (Page α)
  | 0, _ => []
  | fuel + 1, items =>
      let page := paging.page items
      page :: match page.more, page.items.getLast? with
        | true, some oldest => readAll fuel (below key (key oldest) items)
        | _, _ => []

/-- How many items are newer than one. -/
def newer (key : α → κ) (items : List α) (item : α) : Nat :=
  items.countP fun other => key item < key other

/-- How many items are as new as one, or newer. -/
def notOlder (key : α → κ) (items : List α) (item : α) : Nat :=
  items.countP fun other => key item ≤ key other

/-- No group of items of one time is divided by the end of a page. -/
def GroupsWhole (key : α → κ) (size : Nat) (items : List α) : Prop :=
  ∀ item ∈ items, ∀ pages < items.length,
    ¬(newer key items item < pages * size ∧ pages * size < notOlder key items item)

instance (size : Nat) (items : List α) : Decidable (GroupsWhole key size items) :=
  inferInstanceAs (Decidable (∀ item ∈ items, ∀ pages < items.length, ¬(_ ∧ _)))

/-- The pages bring every item once, newest first, and say that there are more as long
as there are. -/
structure Enumerates (key : α → κ) (items : List α) (pages : List (Page α)) : Prop where
  complete : (pages.flatMap Page.items).Perm items
  ordered : (pages.flatMap Page.items).Pairwise fun newer older => key older ≤ key newer
  told : ∀ before page after, pages = before ++ page :: after →
    (page.more = false ↔ ∀ item ∈ items, item ∈ before.flatMap Page.items ++ page.items)

variable {paging} {items : List α}

theorem page_items : (paging.page items).items = (paging.arrange items).take paging.size := by
  simp only [page, List.take_take, Nat.min_eq_left paging.full]

theorem page_more_iff :
    (paging.page items).more = true ↔
      paging.size < items.length ∧ paging.size < paging.fetched := by
  simp only [page, List.length_take, (paging.perm items).length_eq, decide_eq_true_eq]
  omega

/-- What is read of a page is at least as new as what is left. -/
theorem key_le_of_mem_drop {early late : α} {count : Nat}
    (first : early ∈ (paging.arrange items).take count)
    (second : late ∈ (paging.arrange items).drop count) : key late ≤ key early := by
  have descending := paging.descending items
  rw [← List.take_append_drop count (paging.arrange items)] at descending
  exact (List.pairwise_append.mp descending).2.2 early first late second

/-- A page that does not hold everything is full, and ends with its oldest item. -/
theorem exists_oldest (more : paging.size < items.length) :
    ∃ oldest, (paging.page items).items.getLast? = some oldest ∧
      ∀ item ∈ (paging.page items).items, key oldest ≤ key item := by
  have lengthEq : (paging.page items).items.length = paging.size := by
    rw [page_items, List.length_take, (paging.perm items).length_eq, Nat.min_eq_left]
    omega
  have nonempty : (paging.page items).items ≠ [] := by
    intro empty
    have positive := paging.positive
    rw [empty, List.length_nil] at lengthEq
    omega
  refine ⟨_, List.getLast?_eq_some_getLast nonempty, ?_⟩
  intro item mem
  have descending := (paging.descending items).sublist (List.take_sublist paging.size _)
  rw [← page_items, ← List.dropLast_append_getLast nonempty] at descending
  rw [← List.dropLast_append_getLast nonempty] at mem
  rcases List.mem_append.mp mem with earlier | this
  · exact (List.pairwise_append.mp descending).2.2 item earlier _ (List.mem_singleton.mpr rfl)
  · rw [List.mem_singleton.mp this]

section Oldest

variable {oldest : α}

/-- The items of a page are as new as its oldest one. -/
theorem size_le_notOlder (more : paging.size < items.length)
    (bound : ∀ item ∈ (paging.page items).items, key oldest ≤ key item) :
    paging.size ≤ notOlder key items oldest := by
  have counted : ((paging.arrange items).take paging.size).countP
    (fun item => key oldest ≤ key item)
      = paging.size := by
    rw [List.countP_eq_length.mpr, List.length_take, (paging.perm items).length_eq,
      Nat.min_eq_left (Nat.le_of_lt more)]
    intro item mem
    rw [← page_items] at mem
    exact decide_eq_true (bound item mem)
  unfold notOlder
  rw [← (paging.perm items).countP_eq, ← List.take_append_drop paging.size (paging.arrange items),
    List.countP_append, counted]
  exact Nat.le_add_right _ _

/-- Fewer items than fit on a page are newer than its oldest one. -/
theorem newer_lt_size (oldestEq : (paging.page items).items.getLast? = some oldest) :
    newer key items oldest < paging.size := by
  have mem : oldest ∈ (paging.arrange items).take paging.size := by
    rw [← page_items]
    exact List.mem_of_getLast? oldestEq
  have left : ((paging.arrange items).drop paging.size).countP (fun item => key oldest < key item)
      = 0 := by
    rw [List.countP_eq_zero]
    intro item later
    simpa using key_le_of_mem_drop mem later
  have fewer : ((paging.arrange items).take paging.size).countP (fun item => key oldest < key item)
      < ((paging.arrange items).take paging.size).length := by
    apply Nat.lt_of_le_of_ne List.countP_le_length
    intro all
    have self := of_decide_eq_true (List.countP_eq_length.mp all oldest mem)
    exact lt_irrefl _ self
  have fits := List.length_take_le paging.size (paging.arrange items)
  unfold newer
  rw [← (paging.perm items).countP_eq, ← List.take_append_drop paging.size (paging.arrange items),
    List.countP_append, left]
  omega

/-- What lies below the oldest item of a page are the items that are not as new. -/
theorem length_below (oldest : α) :
    (below key (key oldest) items).length + notOlder key items oldest = items.length := by
  unfold below notOlder
  rw [← List.countP_eq_length_filter,
    List.length_eq_countP_add_countP fun item => key item < key oldest]
  congr 1
  apply List.countP_congr
  intro item _
  simp

/-- Where the page ends with a whole group, what is left lies below its oldest item. -/
theorem perm_page_append_below (whole : notOlder key items oldest = paging.size)
    (more : paging.size < items.length)
    (bound : ∀ item ∈ (paging.page items).items, key oldest ≤ key item) :
    ((paging.page items).items ++ below key (key oldest) items).Perm items := by
  have split := List.take_append_drop paging.size (paging.arrange items)
  have counted : ((paging.arrange items).take paging.size).countP
    (fun item => key oldest ≤ key item)
      = paging.size := by
    rw [List.countP_eq_length.mpr, List.length_take, (paging.perm items).length_eq,
      Nat.min_eq_left (Nat.le_of_lt more)]
    intro item mem
    rw [← page_items] at mem
    exact decide_eq_true (bound item mem)
  have none : ∀ item ∈ (paging.arrange items).drop paging.size, key item < key oldest := by
    unfold notOlder at whole
    rw [← (paging.perm items).countP_eq, ← split, List.countP_append, counted] at whole
    have zero : ((paging.arrange items).drop paging.size).countP
        (fun item => key oldest ≤ key item) = 0 := by omega
    intro item mem
    have older := List.countP_eq_zero.mp zero item mem
    simpa using older
  have left : below key (key oldest) (paging.arrange items)
      = (paging.arrange items).drop paging.size := by
    unfold below
    rw [← split, List.filter_append, split]
    have gone : ((paging.arrange items).take paging.size).filter (fun item => key item < key oldest)
        = [] := by
      rw [List.filter_eq_nil_iff]
      intro item mem
      rw [← page_items] at mem
      simpa using bound item mem
    rw [gone, List.nil_append, List.filter_eq_self]
    intro item mem
    exact decide_eq_true (none item mem)
  have belowPerm : (below key (key oldest) items).Perm
      ((paging.arrange items).drop paging.size) := by
    rw [← left]
    exact (paging.perm items).symm.filter _
  have parts : ((paging.page items).items ++ below key (key oldest) items).Perm
      (paging.arrange items) := by
    have joined := belowPerm.append_left ((paging.arrange items).take paging.size)
    rw [split, ← page_items] at joined
    exact joined
  exact parts.trans (paging.perm items)

/-- The groups are whole exactly if they are in what lies below a page that ends
with a whole one. -/
theorem groupsWhole_below_iff (whole : notOlder key items oldest = paging.size)
    (perm : ((paging.page items).items ++ below key (key oldest) items).Perm items)
    (lengthEq : (paging.page items).items.length = paging.size)
    (bound : ∀ item ∈ (paging.page items).items, key oldest ≤ key item) :
    GroupsWhole key paging.size items ↔
      GroupsWhole key paging.size (below key (key oldest) items) := by
  have older : ∀ item ∈ below key (key oldest) items, key item < key oldest := by
    intro item mem
    exact of_decide_eq_true (List.mem_filter.mp mem).2
  have positive := paging.positive
  have total := perm.length_eq
  rw [List.length_append, lengthEq] at total
  have newerEq : ∀ item ∈ below key (key oldest) items, newer key items item
      = paging.size + newer key (below key (key oldest) items) item := by
    intro item mem
    unfold newer
    rw [← perm.countP_eq, List.countP_append, List.countP_eq_length.mpr, lengthEq]
    intro other otherMem
    exact decide_eq_true (lt_of_lt_of_le (older item mem) (bound other otherMem))
  have notOlderEq : ∀ item ∈ below key (key oldest) items, notOlder key items item
      = paging.size + notOlder key (below key (key oldest) items) item := by
    intro item mem
    unfold notOlder
    rw [← perm.countP_eq, List.countP_append, List.countP_eq_length.mpr, lengthEq]
    intro other otherMem
    exact decide_eq_true (le_of_lt (lt_of_lt_of_le (older item mem) (bound other otherMem)))
  constructor
  · intro groups item mem pages within divided
    have one : (pages + 1) * paging.size = pages * paging.size + paging.size := Nat.succ_mul _ _
    apply groups item (List.mem_of_mem_filter mem) (pages + 1) (by omega)
    rw [newerEq item mem, notOlderEq item mem, one]
    omega
  · intro groups item mem pages within divided
    rcases Nat.eq_zero_or_pos pages with rfl | pagesPositive
    · rw [Nat.zero_mul] at divided
      exact absurd divided.1 (Nat.not_lt_zero _)
    · rcases Nat.exists_eq_succ_of_ne_zero (Nat.ne_of_gt pagesPositive) with ⟨before, rfl⟩
      have one : (before + 1) * paging.size = before * paging.size + paging.size :=
        Nat.succ_mul _ _
      rw [Nat.succ_eq_add_one, one] at divided
      by_cases belongs : item ∈ below key (key oldest) items
      · rw [newerEq item belongs, notOlderEq item belongs] at divided
        have few : notOlder key (below key (key oldest) items) item
            ≤ (below key (key oldest) items).length := List.countP_le_length
        have atLeast : before ≤ before * paging.size := Nat.le_mul_of_pos_right _ positive
        exact groups item belongs before (by omega) (by omega)
      · have asNew : key oldest ≤ key item := by
          by_contra older
          exact belongs (List.mem_filter.mpr ⟨mem, decide_eq_true (not_le.mp older)⟩)
        have few : notOlder key items item ≤ notOlder key items oldest := by
          apply List.countP_mono_left
          intro other _ newer
          exact decide_eq_true (le_trans asNew (of_decide_eq_true newer))
        omega

end Oldest

/-! ## Reading everything -/

theorem readAll_of_no_more (fuel : Nat) (noMore : (paging.page items).more = false) :
    paging.readAll (fuel + 1) items = [paging.page items] := by
  simp only [readAll, noMore]

/-- No more items are read than there are. -/
theorem length_readAll_le (fuel : Nat) (items : List α) :
    ((paging.readAll fuel items).flatMap Page.items).length ≤ items.length := by
  induction fuel generalizing items with
  | zero => exact Nat.zero_le _
  | succ fuel ih =>
      rw [readAll]
      split
      · next oldest more oldestEq =>
        have enough := page_more_iff.mp more
        rcases exists_oldest enough.1 with ⟨other, otherEq, bound⟩
        cases Option.some.inj (oldestEq.symm.trans otherEq)
        have rest := ih (below key (key oldest) items)
        have lengths : (below key (key oldest) items).length + notOlder key items oldest
            = items.length := length_below oldest
        have taken := size_le_notOlder enough.1 bound
        have fits : (paging.page items).items.length ≤ paging.size := by
          rw [page_items]
          exact List.length_take_le _ _
        rw [List.flatMap_cons, List.length_append]
        omega
      · rw [List.flatMap_cons, List.flatMap_nil, List.append_nil, page_items, List.length_take,
          (paging.perm items).length_eq]
        exact Nat.min_le_right _ _

/-- A page before pages that enumerate what is left enumerates all. -/
theorem enumerates_cons_iff {page : Page α} {pages : List (Page α)} {rest : List α} {oldest : α}
    (perm : (page.items ++ rest).Perm items)
    (descending : page.items.Pairwise fun newer older => key older ≤ key newer)
    (bound : ∀ item ∈ page.items, key oldest ≤ key item)
    (older : ∀ item ∈ rest, key item < key oldest) (more : page.more = true)
    (nonempty : rest ≠ []) :
    Enumerates key items (page :: pages) ↔ Enumerates key rest pages := by
  have apart : ∀ item ∈ rest, item ∉ page.items := by
    intro item mem here
    exact absurd (bound item here) (not_le.mpr (older item mem))
  have covered : ∀ others : List α, (∀ item ∈ items, item ∈ page.items ++ others) ↔
      ∀ item ∈ rest, item ∈ others := by
    intro others
    constructor
    · intro all item mem
      rcases List.mem_append.mp (all item (perm.subset (List.mem_append_right _ mem)))
        with here | there
      · exact absurd here (apart item mem)
      · exact there
    · intro all item mem
      rcases List.mem_append.mp (perm.symm.subset mem) with here | left
      · exact List.mem_append_left _ here
      · exact List.mem_append_right _ (all item left)
  constructor
  · intro enumerates
    have complete := enumerates.complete.trans perm.symm
    rw [List.flatMap_cons] at complete
    refine ⟨(List.perm_append_left_iff _).mp complete, ?_, ?_⟩
    · have ordered := enumerates.ordered
      rw [List.flatMap_cons] at ordered
      exact (List.pairwise_append.mp ordered).2.1
    · intro before other after split
      have told := enumerates.told (page :: before) other after (by rw [split, List.cons_append])
      rw [List.flatMap_cons, List.append_assoc, covered] at told
      exact told
  · intro enumerates
    refine ⟨?_, ?_, ?_⟩
    · rw [List.flatMap_cons]
      exact (enumerates.complete.append_left _).trans perm
    · rw [List.flatMap_cons]
      apply List.pairwise_append.mpr
      refine ⟨descending, enumerates.ordered, ?_⟩
      intro newerItem newerMem olderItem olderMem
      have left := older olderItem (enumerates.complete.subset olderMem)
      exact le_of_lt (lt_of_lt_of_le left (bound newerItem newerMem))
    · intro before other after split
      cases before with
      | nil =>
          rw [List.nil_append, List.cons.injEq] at split
          rcases split with ⟨rfl, -⟩
          rw [List.flatMap_nil, List.nil_append, more]
          constructor
          · intro impossible
            cases impossible
          · intro all
            rcases List.exists_mem_of_ne_nil rest nonempty with ⟨item, mem⟩
            exact absurd (all item (perm.subset (List.mem_append_right _ mem))) (apart item mem)
      | cons first before =>
          rw [List.cons_append, List.cons.injEq] at split
          rcases split with ⟨rfl, split⟩
          rw [List.flatMap_cons, List.append_assoc, covered]
          exact enumerates.told before other after split

/-- One page that holds everything enumerates it. -/
theorem enumerates_single (few : items.length ≤ paging.size) :
    Enumerates key items [paging.page items] := by
  have all : (paging.page items).items = paging.arrange items := by
    rw [page_items, List.take_of_length_le]
    rw [(paging.perm items).length_eq]
    exact few
  have noMore : (paging.page items).more = false := by
    rw [Bool.eq_false_iff]
    intro more
    have enough := (page_more_iff.mp more).1
    omega
  refine ⟨?_, ?_, ?_⟩
  · rw [List.flatMap_cons, List.flatMap_nil, List.append_nil, all]
    exact paging.perm items
  · rw [List.flatMap_cons, List.flatMap_nil, List.append_nil, all]
    exact paging.descending items
  · intro before other after split
    cases before with
    | nil =>
        rw [List.nil_append, List.cons.injEq] at split
        rcases split with ⟨rfl, -⟩
        rw [List.flatMap_nil, List.nil_append, all]
        constructor
        · intro _ item mem
          exact (paging.perm items).symm.subset mem
        · intro
          exact noMore
    | cons first before =>
        rw [List.cons_append, List.cons.injEq] at split
        exact absurd split.2.symm (by simp)

/-- Groups within one page are whole. -/
theorem groupsWhole_of_length_le (few : items.length ≤ paging.size) :
    GroupsWhole key paging.size items := by
  intro item _ pages _ divided
  have most : notOlder key items item ≤ items.length := List.countP_le_length
  rcases Nat.eq_zero_or_pos pages with rfl | positive
  · rw [Nat.zero_mul] at divided
    exact absurd divided.1 (Nat.not_lt_zero _)
  · have atLeast : paging.size ≤ pages * paging.size := Nat.le_mul_of_pos_left _ positive
    omega

/-- A reader gets everything once and in order, and is told so, exactly if everything
is on the first page, or the rows fetched show that there is more and no page ends
within a group. -/
theorem enumerates_readAll_iff {fuel : Nat} (enough : items.length < fuel) :
    Enumerates key items (paging.readAll fuel items) ↔
      items.length ≤ paging.size ∨
        paging.size < paging.fetched ∧ GroupsWhole key paging.size items := by
  induction fuel generalizing items with
  | zero => exact absurd enough (Nat.not_lt_zero _)
  | succ fuel ih =>
      rcases Nat.lt_or_ge paging.size items.length with more | few
      · rcases exists_oldest more with ⟨oldest, oldestEq, bound⟩
        have lengthEq : (paging.page items).items.length = paging.size := by
          rw [page_items, List.length_take, (paging.perm items).length_eq,
            Nat.min_eq_left (Nat.le_of_lt more)]
        have notAll : ¬items.length ≤ paging.size := Nat.not_le.mpr more
        rw [or_iff_right notAll]
        by_cases spare : paging.size < paging.fetched
        · rw [and_iff_right spare]
          have hasMore : (paging.page items).more = true := page_more_iff.mpr ⟨more, spare⟩
          have read : paging.readAll (fuel + 1) items
              = paging.page items :: paging.readAll fuel (below key (key oldest) items) := by
            rw [readAll, hasMore, oldestEq]
          have lengths : (below key (key oldest) items).length + notOlder key items oldest
              = items.length := length_below oldest
          have taken := size_le_notOlder more bound
          rw [read]
          rcases Nat.eq_or_lt_of_le taken with whole | divided
          · have perm := perm_page_append_below whole.symm more bound
            have left : (below key (key oldest) items).length < fuel := by
              have positive := paging.positive
              omega
            have nonempty : below key (key oldest) items ≠ [] := by
              intro empty
              rw [empty, List.length_nil] at lengths
              omega
            have descending : (paging.page items).items.Pairwise
                fun newer older => key older ≤ key newer := by
              rw [page_items]
              exact (paging.descending items).sublist (List.take_sublist _ _)
            have older : ∀ item ∈ below key (key oldest) items, key item < key oldest := by
              intro item mem
              exact of_decide_eq_true (List.mem_filter.mp mem).2
            rw [enumerates_cons_iff perm descending bound older hasMore nonempty, ih left,
              groupsWhole_below_iff whole.symm perm lengthEq bound, and_iff_right spare]
            constructor
            · rintro (fits | groups)
              · exact groupsWhole_of_length_le fits
              · exact groups
            · intro groups
              exact Or.inr groups
          · constructor
            · intro enumerates
              have complete := enumerates.complete.length_eq
              have rest : ((paging.readAll fuel (below key (key oldest) items)).flatMap
                  Page.items).length ≤ (below key (key oldest) items).length :=
                length_readAll_le fuel _
              rw [List.flatMap_cons, List.length_append] at complete
              omega
            · intro groups
              have mem : oldest ∈ items := by
                apply (paging.perm items).subset
                apply List.mem_of_mem_take (i := paging.size)
                rw [← page_items]
                exact List.mem_of_getLast? oldestEq
              have positive := paging.positive
              have fewer := newer_lt_size oldestEq
              have one : 1 * paging.size = paging.size := Nat.one_mul _
              exact absurd ⟨by omega, by omega⟩ (groups oldest mem 1 (by omega))
        · have noMore : (paging.page items).more = false := by
            rw [Bool.eq_false_iff]
            intro hasMore
            exact spare (page_more_iff.mp hasMore).2
          simp only [spare, false_and, iff_false]
          intro enumerates
          have complete := enumerates.complete.length_eq
          rw [readAll_of_no_more fuel noMore, List.flatMap_cons, List.flatMap_nil, List.append_nil]
            at complete
          omega
      · have noMore : (paging.page items).more = false := by
          rw [Bool.eq_false_iff]
          intro hasMore
          have enough := (page_more_iff.mp hasMore).1
          omega
        rw [readAll_of_no_more fuel noMore]
        constructor
        · intro
          exact Or.inl few
        · intro
          exact enumerates_single few

end Paging

end ClotoCore.Sequence
