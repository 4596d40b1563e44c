import Mathlib.Logic.Basic

/-!
# Quoted texts

A list of texts is written with each text between quotes and a backslash in
front of every quote and backslash in it.  What stands between two quoted texts
does not matter to the reader, so that brackets, commas and colons can be added.
-/

namespace ClotoCore.Encoding

/-- The characters of a text between its quotes. -/
def escaped : List Char → List Char
  | [] => []
  | char :: rest =>
      if char = '"' ∨ char = '\\' then '\\' :: char :: escaped rest else char :: escaped rest

/-- A text between quotes. -/
def quoted (text : String) : List Char :=
  '"' :: escaped text.toList ++ ['"']

/-- Where the reader stands, with what is read of the text so far. -/
inductive Reading where
  | outside
  | inside (read : List Char)
  | afterBackslash (read : List Char)

/-- The quoted texts of a line. -/
def quotedTexts : Reading → List Char → List String
  | _, [] => []
  | .outside, char :: rest =>
      if char = '"' then quotedTexts (.inside []) rest else quotedTexts .outside rest
  | .inside read, char :: rest =>
      if char = '"' then String.ofList read :: quotedTexts .outside rest
      else if char = '\\' then quotedTexts (.afterBackslash read) rest
      else quotedTexts (.inside (read ++ [char])) rest
  | .afterBackslash read, char :: rest => quotedTexts (.inside (read ++ [char])) rest

theorem quotedTexts_escaped (read text rest : List Char) :
    quotedTexts (.inside read) (escaped text ++ '"' :: rest) =
      String.ofList (read ++ text) :: quotedTexts .outside rest := by
  induction text generalizing read with
  | nil => simp [escaped, quotedTexts]
  | cons char text ih =>
      have inner := ih (read ++ [char])
      rw [List.append_assoc, List.singleton_append] at inner
      by_cases special : char = '"' ∨ char = '\\'
      · have written : escaped (char :: text) = '\\' :: char :: escaped text := if_pos special
        rw [written, ← inner]
        simp [quotedTexts]
      · have written : escaped (char :: text) = char :: escaped text := if_neg special
        rw [not_or] at special
        rw [written, ← inner]
        simp [quotedTexts, special.1, special.2]

/-- A quoted text is read back, and the reader goes on behind it. -/
theorem quotedTexts_quoted (text : String) (rest : List Char) :
    quotedTexts .outside (quoted text ++ rest) = text :: quotedTexts .outside rest := by
  have inside := quotedTexts_escaped [] text.toList rest
  simpa [quoted, quotedTexts] using inside

/-- Texts with a separator in front of each but the first one. -/
def separated (separator : Char) : List (List Char) → List Char
  | [] => []
  | [item] => item
  | item :: next :: items => item ++ separator :: separated separator (next :: items)

/-- Separators and a bracket around items are skipped. -/
theorem quotedTexts_separated {α : Type} {write : α → List Char} {texts : α → List String}
    (reads : ∀ item rest, quotedTexts .outside (write item ++ rest) =
      texts item ++ quotedTexts .outside rest)
    {separator closing : Char} (plain : separator ≠ '"') (closes : closing ≠ '"')
    (items : List α) :
    quotedTexts .outside (separated separator (items.map write) ++ [closing]) =
      items.flatMap texts := by
  have closed : quotedTexts .outside [closing] = [] := by simp [quotedTexts, closes]
  induction items with
  | nil => exact closed
  | cons item items ih =>
      cases items with
      | nil =>
          rw [List.map_singleton, separated, reads, closed]
          rfl
      | cons next items =>
          rw [List.map_cons, List.map_cons, separated, List.append_assoc, reads]
          rw [List.map_cons] at ih
          simp only [List.cons_append, quotedTexts, plain, if_false]
          rw [ih]
          rfl

/-- Texts two by two, as they stand in a map. -/
def pairs : List String → List (String × String)
  | name :: value :: rest => (name, value) :: pairs rest
  | _ => []

theorem pairs_flatMap (entries : List (String × String)) :
    pairs (entries.flatMap fun entry => [entry.1, entry.2]) = entries := by
  induction entries with
  | nil => rfl
  | cons entry entries ih =>
      rw [List.flatMap_cons]
      exact congrArg (entry :: ·) ih

end ClotoCore.Encoding
