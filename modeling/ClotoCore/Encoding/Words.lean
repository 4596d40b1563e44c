import ClotoCore.Encoding.Text
import Mathlib.Data.List.TakeWhile

/-!
# Lines, words and letter case of a text

What `str::to_lowercase`, `str::lines`, `str::trim` and `str::trim_start_matches` make of
a text, and which parts of the text are found again in what they make of it.
-/

namespace ClotoCore.Encoding

variable {text : List Char}

/-! ## Lower case -/

/-- `to_lowercase`: an ASCII character has one lower case, and `other` gives that of
another one, which may depend on the text before it and the text behind it. -/
def lowercase (other : List Char → Char → List Char → List Char) (before : List Char) :
    List Char → List Char
  | [] => []
  | c :: rest =>
      (if c.toNat < 128 then [lowerChar c] else other before c rest) ++
        lowercase other (before ++ [c]) rest

section Lowercase

variable {other : List Char → Char → List Char → List Char}

/-- A part that lower case leaves as it is. -/
def KeptByLowercase (part : List Char) : Prop :=
  ∀ c ∈ part, c.toNat < 128 ∧ lowerChar c = c

instance (part : List Char) : Decidable (KeptByLowercase part) :=
  List.decidableBAll _ part

/-- ASCII characters are put in lower case one by one. -/
theorem lowercase_append_of_ascii {part : List Char} (ascii : ∀ c ∈ part, c.toNat < 128)
    (before rest : List Char) :
    lowercase other before (part ++ rest) =
      part.map lowerChar ++ lowercase other (before ++ part) rest := by
  induction part generalizing before with
  | nil => simp
  | cons c part ih =>
      obtain ⟨first, others⟩ := List.forall_mem_cons.mp ascii
      rw [List.cons_append, lowercase, if_pos first, ih others]
      simp

theorem map_lowerChar_of_kept {part : List Char} (kept : KeptByLowercase part) :
    part.map lowerChar = part := by
  rw [List.map_congr_left fun c mem => (kept c mem).2, List.map_id']

theorem exists_lowercase_append (front before rest : List Char) :
    ∃ lowered, lowercase other before (front ++ rest) =
      lowered ++ lowercase other (before ++ front) rest := by
  induction front generalizing before with
  | nil => exact ⟨[], by simp⟩
  | cons c front ih =>
      obtain ⟨lowered, cut⟩ := ih (before ++ [c])
      rw [List.cons_append, lowercase, cut]
      exact ⟨_, by rw [← List.append_assoc, List.append_assoc before, List.singleton_append]⟩

/-- Lower case leaves a part in the text that it leaves as it is. -/
theorem found_in_lowercase {part : List Char} (kept : KeptByLowercase part) (found : part <:+: text)
    (before : List Char) : part <:+: lowercase other before text := by
  obtain ⟨front, rest, rfl⟩ := found
  have cut : ∃ lowered, lowercase other before (front ++ (part ++ rest)) =
      lowered ++ lowercase other (before ++ front) (part ++ rest) :=
    exists_lowercase_append front before (part ++ rest)
  obtain ⟨lowered, cut⟩ := cut
  rw [List.append_assoc, cut, lowercase_append_of_ascii fun c mem => (kept c mem).1,
    map_lowerChar_of_kept kept, ← List.append_assoc]
  exact ⟨lowered, _, rfl⟩

end Lowercase

/-! ## Lines -/

/-- A line without the carriage return at its end. -/
def stripReturn (line : List Char) : List Char :=
  if line.getLast? = some '\r' then line.dropLast else line

/-- `lines` -/
def lines (text : List Char) : List (List Char) :=
  let pieces := text.splitOn '\n'
  (if pieces.getLast? = some [] then pieces.dropLast else pieces).map stripReturn

theorem mem_splitOn {front line back : List Char} (whole : '\n' ∉ line)
    (starts : front = [] ∨ ∃ before, front = before ++ ['\n'])
    (ends : back = [] ∨ ∃ after, back = '\n' :: after) :
    line ∈ (front ++ line ++ back).splitOn '\n' := by
  have cut : line ∈ (line ++ back).splitOn '\n' := by
    rcases ends with rfl | ⟨after, rfl⟩
    · simp [List.splitOn_eq_singleton whole]
    · rw [List.splitOn_append_cons_self, List.splitOn_eq_singleton whole]
      simp
  rcases starts with rfl | ⟨before, rfl⟩
  · exact cut
  · rw [List.append_assoc, List.append_assoc, List.singleton_append,
      List.splitOn_append_cons_self]
    exact List.mem_append_right _ cut

/-- A piece between line breaks is a line, unless it is empty. -/
theorem stripReturn_mem_lines {line : List Char} (piece : line ∈ text.splitOn '\n')
    (nonempty : line ≠ []) : stripReturn line ∈ lines text := by
  refine List.mem_map_of_mem ?_
  split
  case isTrue last =>
    obtain ⟨pieces, split⟩ := List.getLast?_eq_some_iff.mp last
    rw [split] at piece ⊢
    rcases List.mem_append.mp piece with mem | mem
    · simpa using mem
    · exact absurd (List.mem_singleton.mp mem) nonempty
  case isFalse => exact piece

/-- What stands at the front of a line stays there. -/
theorem exists_stripReturn {front : List Char} (back : List Char)
    (last : ∃ c, front.getLast? = some c ∧ isWhitespace c = false) :
    ∃ rest, stripReturn (front ++ back) = front ++ rest ∧ rest <+: back := by
  obtain ⟨c, isLast, other⟩ := last
  cases back with
  | nil =>
      refine ⟨[], ?_, List.prefix_refl _⟩
      rw [List.append_nil, stripReturn, if_neg]
      rw [isLast]
      rintro ⟨⟩
      exact absurd other (by decide)
  | cons d back =>
      unfold stripReturn
      split
      · refine ⟨(d :: back).dropLast, ?_, List.dropLast_prefix _⟩
        rw [List.dropLast_append_of_ne_nil (by simp)]
      · exact ⟨d :: back, rfl, List.prefix_refl _⟩

/-! ## Trimmed texts -/

/-- `trim` -/
def trimChars (text : List Char) : List Char :=
  ((text.dropWhile isWhitespace).reverse.dropWhile isWhitespace).reverse

/-- What begins and ends with no white space is not trimmed. -/
theorem exists_trimChars {blanks front : List Char} (back : List Char)
    (blank : ∀ c ∈ blanks, isWhitespace c = true)
    (first : ∃ c, front.head? = some c ∧ isWhitespace c = false)
    (last : ∃ c, front.getLast? = some c ∧ isWhitespace c = false) :
    ∃ rest, trimChars (blanks ++ (front ++ back)) = front ++ rest ∧ rest <+: back := by
  have left : (blanks ++ (front ++ back)).dropWhile isWhitespace = front ++ back := by
    rw [List.dropWhile_append_of_pos blank]
    obtain ⟨c, head, other⟩ := first
    cases front with
    | nil => cases head
    | cons d front =>
        cases head
        simp [other]
  have right : front.reverse.dropWhile isWhitespace = front.reverse := by
    obtain ⟨c, isLast, other⟩ := last
    rw [← List.head?_reverse] at isLast
    cases reversed : front.reverse with
    | nil => rfl
    | cons d rest =>
        rw [reversed] at isLast
        cases isLast
        simp [other]
  have nonempty : front.reverse ≠ [] := by
    obtain ⟨c, head, -⟩ := first
    rintro empty
    rw [List.reverse_eq_nil_iff.mp empty] at head
    cases head
  refine ⟨(back.reverse.dropWhile isWhitespace).reverse, ?_, ?_⟩
  · rw [trimChars, left, List.reverse_append, List.dropWhile_append]
    split
    case isTrue gone =>
      rw [List.isEmpty_iff] at gone
      rw [right, gone]
      simp
    case isFalse => simp
  · rw [← List.reverse_suffix, List.reverse_reverse]
    exact List.dropWhile_suffix _

/-- What stands behind the last line break. -/
def lastLine (text : List Char) : List Char :=
  (text.reverse.takeWhile (· != '\n')).reverse

theorem exists_lastLine (front : List Char) :
    ∃ before, front = before ++ lastLine front ∧
      (before = [] ∨ ∃ earlier, before = earlier ++ ['\n']) := by
  refine ⟨(front.reverse.dropWhile (· != '\n')).reverse, ?_, ?_⟩
  · rw [lastLine, ← List.reverse_append, List.takeWhile_append_dropWhile, List.reverse_reverse]
  · cases rest : front.reverse.dropWhile (· != '\n') with
    | nil => exact .inl rfl
    | cons c earlier =>
        have isBreak := List.head?_dropWhile_not (· != '\n') front.reverse
        rw [rest] at isBreak
        have isBreak : c = '\n' := by simpa using isBreak
        exact .inr ⟨earlier.reverse, by simp [isBreak]⟩

theorem not_mem_lastLine (front : List Char) : '\n' ∉ lastLine front := by
  intro mem
  have other := List.mem_takeWhile_imp (List.mem_reverse.mp mem)
  simp at other

/-- A part of a text that holds no line break lies on one piece between line breaks. -/
theorem exists_piece (front : List Char) {part : List Char} (back : List Char)
    (whole : '\n' ∉ part) :
    ∃ rest, lastLine front ++ (part ++ rest) ∈ (front ++ (part ++ back)).splitOn '\n' ∧
      rest <+: back := by
  obtain ⟨before, cut, starts⟩ := exists_lastLine front
  refine ⟨back.takeWhile (· != '\n'), ?_, List.takeWhile_prefix _⟩
  have free : '\n' ∉ lastLine front ++ (part ++ back.takeWhile (· != '\n')) := by
    intro mem
    rcases List.mem_append.mp mem with mem | mem
    · exact not_mem_lastLine front mem
    rcases List.mem_append.mp mem with mem | mem
    · exact whole mem
    · have other := List.mem_takeWhile_imp mem
      simp at other
  have ends : back.dropWhile (· != '\n') = [] ∨
      ∃ after, back.dropWhile (· != '\n') = '\n' :: after := by
    cases rest : back.dropWhile (· != '\n') with
    | nil => exact .inl rfl
    | cons c later =>
        have isBreak := List.head?_dropWhile_not (· != '\n') back
        rw [rest] at isBreak
        have isBreak : c = '\n' := by simpa using isBreak
        exact .inr ⟨later, by rw [isBreak]⟩
  have mem := mem_splitOn free starts ends
  have joined : before ++ (lastLine front ++ (part ++ back.takeWhile (· != '\n'))) ++
      back.dropWhile (· != '\n') = front ++ (part ++ back) := by
    rw [List.append_assoc, List.append_assoc, List.append_assoc, List.takeWhile_append_dropWhile,
      ← List.append_assoc, ← cut]
  rwa [joined] at mem

/-- A part of a text before which only white space stands on its line begins a trimmed
line. -/
theorem exists_trimmed_line {front part : List Char} (back : List Char) (whole : '\n' ∉ part)
    (blank : ∀ c ∈ lastLine front, isWhitespace c = true)
    (first : ∃ c, part.head? = some c ∧ isWhitespace c = false)
    (last : ∃ c, part.getLast? = some c ∧ isWhitespace c = false) :
    ∃ line ∈ lines (front ++ (part ++ back)), ∃ rest,
      trimChars line = part ++ rest ∧ rest <+: back := by
  obtain ⟨rest, piece, isPrefix⟩ := exists_piece front back whole
  have nonempty : part ≠ [] := by
    rintro rfl
    obtain ⟨c, head, -⟩ := first
    cases head
  have lineEnd : ∃ c, (lastLine front ++ part).getLast? = some c ∧ isWhitespace c = false := by
    obtain ⟨c, isLast, other⟩ := last
    exact ⟨c, by rw [List.getLast?_append, isLast, Option.some_or], other⟩
  obtain ⟨kept, stripped, keptPrefix⟩ := exists_stripReturn rest lineEnd
  rw [List.append_assoc, List.append_assoc] at stripped
  obtain ⟨trimmed, trim, trimmedPrefix⟩ := exists_trimChars kept blank first last
  refine ⟨_, stripReturn_mem_lines piece (by simp [nonempty]), trimmed, ?_, ?_⟩
  · rw [stripped, trim]
  · exact trimmedPrefix.trans (keptPrefix.trans isPrefix)

/-! ## Repeated beginnings -/

/-- `trim_start_matches`, as often as `fuel` allows. -/
def trimStart (pattern : List Char) : Nat → List Char → List Char
  | 0, text => text
  | fuel + 1, text =>
      if pattern.isPrefixOf text then trimStart pattern fuel (text.drop pattern.length) else text

/-- `trim_start_matches` -/
def trimStartMatches (pattern text : List Char) : List Char :=
  trimStart pattern text.length text

theorem trimStartMatches_of_other {pattern : List Char} (other : ¬pattern <+: text) :
    trimStartMatches pattern text = text := by
  unfold trimStartMatches
  cases text with
  | nil => rfl
  | cons c text =>
      rw [List.length_cons, trimStart, if_neg (by simpa [List.isPrefixOf_iff_prefix] using other)]

/-- A pattern that stands at the front once. -/
theorem trimStartMatches_append {pattern rest : List Char} (nonempty : pattern ≠ [])
    (other : ¬pattern <+: rest) : trimStartMatches pattern (pattern ++ rest) = rest := by
  unfold trimStartMatches
  obtain ⟨c, others, rfl⟩ := List.exists_cons_of_ne_nil nonempty
  have matched : (c :: others).isPrefixOf (c :: others ++ rest) = true := by
    simp [List.isPrefixOf_iff_prefix]
  rw [List.cons_append, List.length_cons, trimStart, ← List.cons_append, if_pos matched,
    List.drop_left]
  cases fuel : (others ++ rest).length with
  | zero => rfl
  | succ fuel =>
      rw [trimStart, if_neg (by simpa [List.isPrefixOf_iff_prefix] using other)]

end ClotoCore.Encoding
