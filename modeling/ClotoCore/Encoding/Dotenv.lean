import ClotoCore.Encoding.Lines
import ClotoCore.Encoding.Text
import ClotoCore.Encoding.Words

/-!
# Files of environment variables

The dotenv format.  A text is a sequence of statements, each of one line or of several
where a quote stays open at a line's end.  A statement defines a name, or it is blank or a
comment; a reader stops at a statement that is neither, and of several definitions of a
name the first one counts.  What a value stands for is a parameter.
-/

namespace ClotoCore.Encoding.Dotenv

open ClotoCore.Encoding

/-! ## Statements -/

/-- Where a reader stands in the text of a statement. -/
inductive Quoting where
  | bare
  | blank
  | escaped
  | double
  | doubleEscaped
  | single
  | comment
  deriving DecidableEq

/-- A character is read.  A `#` behind a blank begins a comment. -/
def Quoting.next (quoting : Quoting) (c : Char) : Quoting :=
  match quoting with
  | .comment => .comment
  | .escaped => .bare
  | .double => if c = '\\' then .doubleEscaped else if c = '"' then .bare else .double
  | .doubleEscaped => .double
  | .single => if c = '\'' then .bare else .single
  | .bare | .blank =>
      if quoting = .blank ∧ c = '#' then .comment
      else if isWhitespace c then .blank
      else if c = '\\' then .escaped
      else if c = '"' then .double
      else if c = '\'' then .single
      else .bare

/-- Whether a quotation is not closed yet. -/
def Quoting.isOpen : Quoting → Bool
  | .double | .doubleEscaped | .single => true
  | _ => false

/-- A quote is open at the end of a text. -/
def isOpen (text : List Char) : Bool :=
  (text.foldl Quoting.next .blank).isOpen

/-- The lines of a statement. -/
abbrev Statement := List (List Char)

/-- The text of a statement. -/
def Statement.text (statement : Statement) : List Char :=
  ['\n'].intercalate statement

/-- Lines are grouped behind the first lines of a statement.  The last statement may be
unfinished. -/
def statements (held : List (List Char)) : List (List Char) → List Statement
  | [] => if held = [] then [] else [held]
  | line :: lines =>
      if isOpen (Statement.text (held ++ [line])) then statements (held ++ [line]) lines
      else (held ++ [line]) :: statements [] lines

/-- The lines of a text.  Behind the last line feed there is one only if something is. -/
def textLines (text : List Char) : List (List Char) :=
  let pieces := text.splitOn '\n'
  if pieces.getLast? = some [] then pieces.dropLast else pieces

/-- The statements of a file. -/
def statementsOf (text : List Char) : List Statement :=
  statements [] (textLines text)

/-! ## Definitions -/

/-- What a statement says. -/
inductive Reading where
  | nothing
  | malformed
  | defines (name value : List Char)
  deriving DecidableEq

/-- A character that a name may begin with. -/
def isNameStart (c : Char) : Bool :=
  ('a' ≤ c && c ≤ 'z') || ('A' ≤ c && c ≤ 'Z') || c == '_'

/-- A character that may stand in a name. -/
def isNameChar (c : Char) : Bool :=
  isNameStart c || ('0' ≤ c && c ≤ '9') || c == '.'

/-- A name and what is behind it and behind blanks. -/
def takeName (text : List Char) : Option (List Char × List Char) :=
  if (text.head?.map isNameStart).getD false then
    some (text.takeWhile isNameChar, (text.dropWhile isNameChar).dropWhile isWhitespace)
  else none

/-- What is behind an equals sign and blanks. -/
def takeEquals : List Char → Option (List Char)
  | '=' :: rest => some (rest.dropWhile isWhitespace)
  | _ => none

/-- A name and the text of its value.  The word `export` may stand before the name, and is
a name itself where an equals sign follows. -/
def definition (text : List Char) : Option (List Char × List Char) :=
  (takeName text).bind fun (name, rest) =>
    if name = "export".toList ∧ rest.head? ≠ some '=' then
      (takeName rest).bind fun (name, rest) => (takeEquals rest).map fun rest => (name, rest)
    else (takeEquals rest).map fun rest => (name, rest)

variable (value : List Char → Option (List Char))

/-- The reading of a finished statement. -/
def readText (text : List Char) : Reading :=
  let text := text.dropWhile isWhitespace
  if text.head?.all (· == '#') then .nothing
  else
    match definition text with
    | none => .malformed
    | some (name, rest) =>
        match value rest with
        | none => .malformed
        | some value => .defines name value

/-- The carriage return at the end of a statement belongs to the end of its line. -/
def read (statement : Statement) : Reading :=
  if isOpen statement.text then .malformed else readText value (stripReturn statement.text)

/-- The definitions up to a malformed statement. -/
def definitions : List Reading → List (List Char × List Char)
  | [] => []
  | .nothing :: readings => definitions readings
  | .malformed :: _ => []
  | .defines name value :: readings => (name, value) :: definitions readings

/-- What a loader reads for a name, where no variable is set beforehand. -/
def load (text name : List Char) : Option (List Char) :=
  (definitions ((statementsOf text).map (read value))).lookup name

/-! ## Lines -/

theorem textLines_append_newline {lines : List (List Char)} (nonempty : lines ≠ [])
    (plain : ∀ line ∈ lines, '\n' ∉ line) :
    textLines (['\n'].intercalate lines ++ ['\n']) = lines := by
  have pieces : (['\n'].intercalate lines ++ ['\n']).splitOn '\n' = lines ++ [[]] := by
    rw [List.splitOn_append_cons_self, List.splitOn_intercalate _ plain nonempty]
    rfl
  simp [textLines, pieces]

/-- The statements hold the lines in order. -/
theorem flatten_statements (held lines : List (List Char)) :
    (statements held lines).flatten = held ++ lines := by
  induction lines generalizing held with
  | nil =>
      rw [statements]
      split
      · next empty => simp [empty]
      · simp
  | cons line lines ih =>
      rw [statements]
      split
      · simp [ih]
      · simp [ih]

/-- What is held goes on as the first statement. -/
theorem exists_statements_cons {held : List (List Char)} (nonempty : held ≠ [])
    (lines : List (List Char)) :
    ∃ more rest, statements held lines = (held ++ more) :: rest ∧ (lines ≠ [] → more ≠ []) := by
  induction lines generalizing held with
  | nil => exact ⟨[], [], by simp [statements, nonempty], by simp⟩
  | cons line lines ih =>
      rw [statements]
      split
      · have filled : held ++ [line] ≠ [] := by simp
        rcases ih filled with ⟨more, rest, first, -⟩
        exact ⟨line :: more, rest, by simp [first], by simp⟩
      · exact ⟨[line], statements [] lines, rfl, by simp⟩

/-! ## Carriage returns -/

theorem stripReturn_append (text : List Char) : stripReturn (text ++ ['\r']) = text := by
  simp [stripReturn]

theorem stripReturn_of_getLast {text : List Char} (other : text.getLast? ≠ some '\r') :
    stripReturn text = text :=
  if_neg other

/-- A line either ends in a carriage return or is kept. -/
theorem eq_or_stripReturn (line : List Char) :
    stripReturn line = line ∨ line = stripReturn line ++ ['\r'] := by
  by_cases last : line.getLast? = some '\r'
  · right
    rcases List.getLast?_eq_some_iff.mp last with ⟨front, rfl⟩
    rw [stripReturn_append]
  · exact Or.inl (stripReturn_of_getLast last)

/-- A carriage return opens no quote and closes none. -/
theorem isOpen_append_return (text : List Char) : isOpen (text ++ ['\r']) = isOpen text := by
  unfold isOpen
  rw [List.foldl_append]
  cases text.foldl Quoting.next .blank <;> rfl

theorem text_append_append (held : List (List Char)) (line more : List Char) :
    Statement.text (held ++ [line ++ more]) = Statement.text (held ++ [line]) ++ more := by
  unfold Statement.text
  induction held with
  | nil => simp
  | cons first held ih =>
      cases held with
      | nil => simp [List.intercalate_cons_cons]
      | cons second held =>
          simp only [List.cons_append, List.intercalate_cons_cons, List.append_assoc] at ih ⊢
          rw [ih]

/-- A statement that ends with a line ends with that line's last character. -/
theorem getLast?_text {held : List (List Char)} {line : List Char} (c : Char)
    (other : c ≠ '\n') (last : line.getLast? ≠ some c) :
    (Statement.text (held ++ [line])).getLast? ≠ some c := by
  have empty := text_append_append held [] line
  rw [List.nil_append] at empty
  rw [empty]
  cases line with
  | cons first line =>
      rw [List.getLast?_append]
      simpa using last
  | nil =>
      unfold Statement.text
      cases held with
      | nil => simp
      | cons first held =>
          have ends : ['\n'].intercalate (first :: held ++ [[]])
              = ['\n'].intercalate (first :: held) ++ ['\n'] := by
            rw [intercalate_append_behind (by simp)]
            rfl
          rw [ends, List.getLast?_append]
          simp [Ne.symm other]

variable {value}

/-- A carriage return at the end of a statement does not change how it is read. -/
theorem read_append_return {held : List (List Char)} {line : List Char}
    (last : line.getLast? ≠ some '\r') :
    read value (held ++ [line ++ ['\r']]) = read value (held ++ [line]) := by
  unfold read
  rw [text_append_append, isOpen_append_return, stripReturn_append,
    stripReturn_of_getLast (getLast?_text '\r' (by decide) last)]

/-! ## Plain lines -/

/-- In a text of plain characters no quote is opened. -/
theorem isOpen_of_plain {text : List Char}
    (plain : ∀ c ∈ text, isWhitespace c = false ∧ c ≠ '\\' ∧ c ≠ '"' ∧ c ≠ '\'' ∧ c ≠ '#') :
    isOpen text = false := by
  have stays : ∀ quoting, quoting = .bare ∨ quoting = .blank →
      text.foldl Quoting.next quoting = .bare ∨ text.foldl Quoting.next quoting = .blank := by
    induction text with
    | nil => exact fun quoting start => start
    | cons c text ih =>
        intro quoting start
        rcases plain c List.mem_cons_self with ⟨space, slash, double, single, hash⟩
        rw [List.foldl_cons]
        apply ih fun later mem => plain later (List.mem_cons_of_mem _ mem)
        left
        rcases start with rfl | rfl <;> simp [Quoting.next, space, slash, double, single, hash]
  unfold isOpen
  rcases stays .blank (Or.inr rfl) with here | here <;> rw [here] <;> rfl

example : statementsOf "A=\"x\ny\" # 'z\nB='1".toList
    = [["A=\"x".toList, "y\" # 'z".toList], ["B='1".toList]] := by
  decide +kernel

example : read some ["\texport  B = 1\r".toList] = .defines "B".toList "1".toList := by
  decide +kernel

end ClotoCore.Encoding.Dotenv
