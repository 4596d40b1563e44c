import Mathlib.Data.List.Infix
import Mathlib.Logic.Basic

/-!
# Lines that arrive in pieces

A sequence arrives piece by piece and is cut at a separator as it comes; what follows the
last separator waits for the next piece.  The lines are those of the whole sequence,
wherever the pieces end, as far as the reader follows it.
-/

namespace ClotoCore.Encoding

universe u

variable {α : Type u} [DecidableEq α]

/-- The finished lines of a sequence that goes on behind the beginning of a line, and the
beginning of the next one. -/
def cut (separator : α) (line : List α) : List α → List (List α) × List α
  | [] => ([], line)
  | item :: items =>
      if item = separator then
        (line :: (cut separator [] items).1, (cut separator [] items).2)
      else cut separator (line ++ [item]) items

variable {separator : α}

/-- Cutting goes on behind what is left of the first part. -/
theorem cut_append (line first second : List α) :
    cut separator line (first ++ second)
      = ((cut separator line first).1 ++ (cut separator (cut separator line first).2 second).1,
        (cut separator (cut separator line first).2 second).2) := by
  induction first generalizing line with
  | nil => simp [cut]
  | cons item first ih =>
      rw [List.cons_append, cut, cut]
      split
      · rw [ih]
        simp
      · exact ih (line ++ [item])

/-- The beginning of a line, read again, is one. -/
theorem cut_rest (line items : List α) (plain : separator ∉ line) :
    cut separator [] (line ++ items) = cut separator line items := by
  have unfinished : ∀ before after : List α, separator ∉ after →
      cut separator before after = ([], before ++ after) := by
    intro before after free
    induction after generalizing before with
    | nil => simp [cut]
    | cons item after ih =>
        have different : item ≠ separator := fun same => free (same ▸ List.mem_cons_self)
        have later : separator ∉ after := fun mem => free (List.mem_cons_of_mem item mem)
        rw [cut, if_neg different, ih (before ++ [item]) later]
        simp
  rw [cut_append, unfinished [] line plain]
  simp

/-- What is left has no separator. -/
theorem separator_notMem_rest (line items : List α) (plain : separator ∉ line) :
    separator ∉ (cut separator line items).2 := by
  induction items generalizing line with
  | nil => exact plain
  | cons item items ih =>
      rw [cut]
      split
      · exact ih [] List.not_mem_nil
      · next different =>
        apply ih
        intro mem
        rcases List.mem_append.mp mem with before | this
        · exact plain before
        · exact different (List.mem_singleton.mp this).symm

/-- Lines and what is left are the pieces between separators. -/
theorem cut_append_rest (line items : List α) :
    (cut separator line items).1 ++ [(cut separator line items).2]
      = (items.splitOn separator).modifyHead (line ++ ·) := by
  induction items generalizing line with
  | nil => simp [cut]
  | cons item items ih =>
      rcases List.exists_cons_of_ne_nil (List.splitOn_ne_nil separator items) with
        ⟨head, tail, split⟩
      rw [cut, List.splitOn_cons_eq_if_modifyHead]
      split
      · next same =>
        rw [List.cons_append, ih []]
        simp [same, split]
      · next different =>
        rw [ih (line ++ [item])]
        simp [different, split]

theorem cut_eq_splitOn (items : List α) :
    (cut separator [] items).1 ++ [(cut separator [] items).2] = items.splitOn separator := by
  rcases List.exists_cons_of_ne_nil (List.splitOn_ne_nil separator items) with ⟨head, tail, split⟩
  rw [cut_append_rest, split]
  rfl

/-- The lines that a reader gets from the pieces, what is left, and whether it has given
up since a line became too long. -/
def readPieces (separator : α) (bound : Nat) (rest : List α) :
    List (List α) → List (List α) × List α × Bool
  | [] => ([], rest, false)
  | piece :: pieces =>
      if bound < (cut separator [] (rest ++ piece)).2.length then
        ((cut separator [] (rest ++ piece)).1, (cut separator [] (rest ++ piece)).2, true)
      else
        ((cut separator [] (rest ++ piece)).1 ++
            (readPieces separator bound (cut separator [] (rest ++ piece)).2 pieces).1,
          (readPieces separator bound (cut separator [] (rest ++ piece)).2 pieces).2)

/-- The pieces as far as a reader follows them behind what it has read: it gives up after
a piece when the unfinished line is too long. -/
def followed (separator : α) (bound : Nat) (read : List α) : List (List α) → List α × Bool
  | [] => (read, false)
  | piece :: pieces =>
      if bound < (cut separator [] (read ++ piece)).2.length then (read ++ piece, true)
      else followed separator bound (read ++ piece) pieces

/-- A reader gets the lines of the sequence as far as it follows it. -/
theorem readPieces_eq (bound : Nat) (read : List α) (pieces : List (List α)) :
    (cut separator [] read).1 ++ (readPieces separator bound (cut separator [] read).2 pieces).1
        = (cut separator [] (followed separator bound read pieces).1).1 ∧
      (readPieces separator bound (cut separator [] read).2 pieces).2
        = ((cut separator [] (followed separator bound read pieces).1).2,
          (followed separator bound read pieces).2) := by
  induction pieces generalizing read with
  | nil => simp [readPieces, followed]
  | cons piece pieces ih =>
      have plain : separator ∉ (cut separator [] read).2 :=
        separator_notMem_rest [] read List.not_mem_nil
      have whole : cut separator [] (read ++ piece)
          = ((cut separator [] read).1 ++ (cut separator (cut separator [] read).2 piece).1,
            (cut separator (cut separator [] read).2 piece).2) := cut_append [] read piece
      have again := cut_rest (cut separator [] read).2 piece plain
      have left : (cut separator [] (read ++ piece)).2
          = (cut separator [] ((cut separator [] read).2 ++ piece)).2 := by
        rw [whole, again]
      have lines : (cut separator [] (read ++ piece)).1 = (cut separator [] read).1 ++
          (cut separator [] ((cut separator [] read).2 ++ piece)).1 := by
        rw [whole, again]
      rw [readPieces, followed, ← left]
      split
      · exact ⟨lines.symm, rfl⟩
      · rcases ih (read ++ piece) with ⟨first, second⟩
        constructor
        · rw [← first, lines, List.append_assoc]
        · exact second

/-- A reader that never waits for a line longer than the bound follows all pieces. -/
theorem followed_of_bounded {bound : Nat} {read : List α} {pieces : List (List α)}
    (bounded : ∀ front ∈ pieces.inits, front ≠ [] →
      (cut separator [] (read ++ front.flatten)).2.length ≤ bound) :
    followed separator bound read pieces = (read ++ pieces.flatten, false) := by
  induction pieces generalizing read with
  | nil => simp [followed]
  | cons piece pieces ih =>
      have here : (cut separator [] (read ++ piece)).2.length ≤ bound := by
        simpa using bounded [piece] (by simp) (by simp)
      rw [followed, if_neg (Nat.not_lt.mpr here), ih, List.flatten_cons, List.append_assoc]
      intro front mem nonempty
      have later := bounded (piece :: front) (by simpa using List.mem_inits _ _ |>.mp mem) (by simp)
      simpa [List.append_assoc] using later

end ClotoCore.Encoding
