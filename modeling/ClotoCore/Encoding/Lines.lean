import ClotoCore.Encoding.Bytes

/-!
# Joined texts

A text is cut at a separator, and pieces are joined by one.  A piece that a text is
cut into is found at its front exactly if the text goes on behind it with the
separator.

Entries that are a word, a space and a rest are written one after another with a
line break between.  A rest may hold line breaks of its own, but no space, so that
every space belongs to an entry; a word holds neither.  The joined text then gives
back the entries.
-/

namespace ClotoCore.Encoding

universe u

variable {α : Type u} {space newline : α}

/-! ## Pieces -/

/-- What joined pieces go on with, where pieces follow. -/
def behind (newline : α) : List (List α) → List α
  | [] => []
  | entry :: entries => newline :: [newline].intercalate (entry :: entries)

@[simp]
theorem behind_nil : behind newline [] = [] :=
  rfl

theorem intercalate_cons (entry : List α) (entries : List (List α)) :
    [newline].intercalate (entry :: entries) = entry ++ behind newline entries := by
  cases entries with
  | nil => simp
  | cons next entries => simp [behind, List.intercalate_cons_cons]

@[simp]
theorem behind_cons (entry : List α) (entries : List (List α)) :
    behind newline (entry :: entries) = newline :: (entry ++ behind newline entries) := by
  rw [behind, intercalate_cons]

/-- Joined pieces are the first of them and what follows these. -/
theorem intercalate_append_behind {first : List (List α)} (nonempty : first ≠ [])
    (second : List (List α)) :
    [newline].intercalate (first ++ second) =
      [newline].intercalate first ++ behind newline second := by
  induction first with
  | nil => exact absurd rfl nonempty
  | cons entry first ih =>
      rw [List.cons_append, intercalate_cons, intercalate_cons, List.append_assoc]
      cases first with
      | nil => simp
      | cons next first =>
          have joined := ih (by simp)
          rw [List.cons_append, intercalate_cons, intercalate_cons, List.append_assoc] at joined
          rw [List.cons_append, behind_cons, behind_cons, joined]
          simp

/-- The pieces of a text are the first ones of another exactly if that one is the text
or goes on behind it with the separator. -/
theorem splitOn_isPrefix_iff [BEq α] [LawfulBEq α] {front whole : List α} :
    front.splitOn newline <+: whole.splitOn newline ↔
      whole = front ∨ front ++ [newline] <+: whole := by
  constructor
  · rintro ⟨more, split⟩
    have joined : [newline].intercalate (front.splitOn newline ++ more) =
        [newline].intercalate (front.splitOn newline) ++ behind newline more :=
      intercalate_append_behind (List.splitOn_ne_nil newline front) more
    rw [split, List.intercalate_splitOn, List.intercalate_splitOn] at joined
    cases more with
    | nil =>
        left
        simpa using joined
    | cons piece more =>
        right
        exact ⟨piece ++ behind newline more, by simp [joined]⟩
  · rintro (rfl | ⟨rest, rfl⟩)
    · exact List.prefix_refl _
    · rw [List.append_assoc, List.singleton_append, List.splitOn_append_cons_self]
      exact List.prefix_append _ _

/-- A piece has no separator. -/
theorem notMem_of_mem_splitOn [BEq α] [LawfulBEq α] {text piece : List α}
    (mem : piece ∈ text.splitOn newline) : newline ∉ piece := by
  induction text generalizing piece with
  | nil =>
      rw [List.splitOn_nil, List.mem_singleton] at mem
      simp [mem]
  | cons item text ih =>
      rw [List.splitOn_cons_eq_if_modifyHead] at mem
      rcases List.exists_cons_of_ne_nil (List.splitOn_ne_nil newline text) with
        ⟨head, tail, split⟩
      rw [split] at mem ih
      cases same : item == newline with
      | true =>
          rw [same, if_pos rfl] at mem
          rcases List.mem_cons.mp mem with rfl | later
          · simp
          · exact ih later
      | false =>
          rw [same, if_neg Bool.false_ne_true, List.modifyHead_cons] at mem
          rcases List.mem_cons.mp mem with rfl | later
          · have other : newline ≠ item := fun equal => by simp [equal] at same
            simp [other, ih List.mem_cons_self]
          · exact ih (List.mem_cons_of_mem _ later)

/-- What is read of every item is read of the pieces, where a separator gives nothing. -/
theorem flatMap_filterMap_splitOn {β : Type*} [BEq α] [LawfulBEq α] {read : α → Option β}
    (silent : read newline = none) (items : List α) :
    (items.splitOn newline).flatMap (·.filterMap read) = items.filterMap read := by
  induction items with
  | nil => simp
  | cons item items ih =>
      rw [List.splitOn_cons_eq_if_modifyHead]
      rcases List.exists_cons_of_ne_nil (List.splitOn_ne_nil newline items) with
        ⟨head, tail, split⟩
      rw [split, List.flatMap_cons] at ih
      cases same : item == newline with
      | true =>
          rw [if_pos rfl, split, List.flatMap_cons, List.flatMap_cons, ih]
          rw [LawfulBEq.eq_of_beq same, List.filterMap_cons, silent]
          rfl
      | false =>
          rw [if_neg Bool.false_ne_true, split, List.modifyHead_cons, List.flatMap_cons,
            List.filterMap_cons, List.filterMap_cons]
          cases read item <;> simp [ih]

/-! ## Lines of two words -/

/-- A word, a space and a rest without spaces. -/
structure Worded (space newline : α) (entry : List α) : Prop where
  exists_word : ∃ word rest, entry = word ++ space :: rest ∧ space ∉ word ∧ newline ∉ word ∧
    space ∉ rest

theorem Worded.mem {entry : List α} (worded : Worded space newline entry) : space ∈ entry := by
  rcases worded.exists_word with ⟨word, rest, rfl, -⟩
  exact List.mem_append_right word List.mem_cons_self

/-- Behind the rest of an entry a space is found exactly if there is another entry. -/
theorem mem_behind_iff {entries : List (List α)}
    (worded : ∀ entry ∈ entries, Worded space newline entry) :
    space ∈ behind newline entries ↔ entries ≠ [] := by
  cases entries with
  | nil => simp
  | cons next entries =>
      have inside := (worded next List.mem_cons_self).mem
      simp [inside]

/-- Rests without spaces that go on alike end at the same place. -/
theorem rest_behind_inj (different : space ≠ newline) {left right : List α}
    {first second : List (List α)} (leftFree : space ∉ left) (rightFree : space ∉ right)
    (firstWorded : ∀ entry ∈ first, Worded space newline entry)
    (secondWorded : ∀ entry ∈ second, Worded space newline entry)
    (equal : left ++ behind newline first = right ++ behind newline second) :
    left = right ∧ [newline].intercalate first = [newline].intercalate second := by
  have same : first ≠ [] ↔ second ≠ [] := by
    rw [← mem_behind_iff firstWorded, ← mem_behind_iff secondWorded]
    have spaces := congrArg (space ∈ ·) equal
    simpa [leftFree, rightFree] using spaces
  cases first with
  | nil =>
      cases second with
      | nil => simpa using equal
      | cons next second => simp at same
  | cons entry first =>
      cases second with
      | nil => simp at same
      | cons next second =>
          rcases (firstWorded entry List.mem_cons_self).exists_word with
            ⟨word, rest, rfl, wordFree, wordPlain, -⟩
          rcases (secondWorded next List.mem_cons_self).exists_word with
            ⟨nextWord, nextRest, rfl, nextFree, nextPlain, -⟩
          simp only [behind_cons, intercalate_cons, List.append_assoc, List.cons_append] at equal ⊢
          have grouped : (left ++ newline :: word) ++ space :: (rest ++ behind newline first) =
              (right ++ newline :: nextWord) ++ space :: (nextRest ++ behind newline second) := by
            simpa using equal
          -- the next space is behind the next word, and the line break before that word the last
          rcases append_cons_inj_of_notMem (by simp [leftFree, wordFree, different])
            (by simp [rightFree, nextFree, different]) grouped with ⟨fronts, backs⟩
          rcases append_cons_inj_of_notMem_right wordPlain nextPlain fronts with ⟨rests, words⟩
          exact ⟨rests, by rw [words, backs]⟩

/-- Joined lines give back their entries. -/
theorem intercalate_inj_of_worded (different : space ≠ newline) {first second : List (List α)}
    (firstWorded : ∀ entry ∈ first, Worded space newline entry)
    (secondWorded : ∀ entry ∈ second, Worded space newline entry)
    (equal : [newline].intercalate first = [newline].intercalate second) : first = second := by
  induction first generalizing second with
  | nil =>
      cases second with
      | nil => rfl
      | cons next second =>
          have inside := (secondWorded next List.mem_cons_self).mem
          have empty : space ∈ ([] : List α) := by
            rw [List.intercalate_nil, intercalate_cons] at equal
            rw [equal]
            exact List.mem_append_left _ inside
          cases empty
  | cons entry first ih =>
      cases second with
      | nil =>
          have inside := (firstWorded entry List.mem_cons_self).mem
          have empty : space ∈ ([] : List α) := by
            rw [List.intercalate_nil, intercalate_cons] at equal
            rw [← equal]
            exact List.mem_append_left _ inside
          cases empty
      | cons next second =>
          rcases (firstWorded entry List.mem_cons_self).exists_word with
            ⟨word, rest, rfl, wordFree, -, restFree⟩
          rcases (secondWorded next List.mem_cons_self).exists_word with
            ⟨nextWord, nextRest, rfl, nextFree, -, nextRestFree⟩
          rw [intercalate_cons, intercalate_cons, List.append_assoc, List.append_assoc] at equal
          rcases append_cons_inj_of_notMem wordFree nextFree equal with ⟨words, rests⟩
          have firstRest : ∀ entry ∈ first, Worded space newline entry := fun entry mem =>
            firstWorded entry (List.mem_cons_of_mem _ mem)
          have secondRest : ∀ entry ∈ second, Worded space newline entry := fun entry mem =>
            secondWorded entry (List.mem_cons_of_mem _ mem)
          rcases rest_behind_inj different restFree nextRestFree firstRest secondRest rests with
            ⟨same, joined⟩
          rw [words, same, ih firstRest secondRest joined]

end ClotoCore.Encoding
