import ClotoCore.Python.Tokens

/-!
# The words of a line

A literal, a run of name characters and a sign are the pieces of a line.  A number, an
operator and a string with a prefix are made of pieces that touch.  Which names that are
not ASCII Python accepts is a parameter.
-/

namespace ClotoCore.Python

/-- A token of a line, and whether it touches the token before it. -/
structure Piece where
  kind : Kind
  touching : Bool
  spelling : List Char
  deriving DecidableEq, Repr

/-- What a word is; a keyword is a name. -/
inductive WordKind where
  | name
  | number
  | string
  | operator
  deriving DecidableEq, Repr

/-- A word of a line. -/
structure Word where
  kind : WordKind
  spelling : List Char
  deriving DecidableEq, Repr

/-! ## Numbers

Each of these gives what stands behind a part of a number. -/

/-- Digits, each of them behind one underscore at most. -/
def digits (isDigit : Char → Bool) : List Char → List Char
  | [] => []
  | [c] => if isDigit c then [] else [c]
  | c :: d :: rest =>
      if isDigit c then digits isDigit (d :: rest)
      else if c = '_' ∧ isDigit d = true then digits isDigit rest
      else c :: d :: rest

/-- Decimal digits, if the text begins with one. -/
def digitPart (text : List Char) : List Char :=
  if text.head?.any Char.isDigit then digits Char.isDigit text else text

/-- A text behind a fraction, if it begins with one. -/
def fraction : List Char → List Char
  | '.' :: rest => digitPart rest
  | text => text

/-- The sign of an exponent. -/
def exponentSign : List Char → List Char
  | '+' :: rest => rest
  | '-' :: rest => rest
  | text => text

/-- A text behind an exponent, if it begins with one. -/
def exponent : List Char → List Char
  | [] => []
  | c :: rest =>
      if (c = 'e' ∨ c = 'E') ∧ (exponentSign rest).head?.any Char.isDigit = true then
        digitPart (exponentSign rest)
      else c :: rest

/-- A text behind the mark of an imaginary number, if it begins with one. -/
def imaginary : List Char → List Char
  | [] => []
  | c :: rest => if c = 'j' ∨ c = 'J' then rest else c :: rest

/-- A decimal number; if it is no more than digits, no zero stands before other digits. -/
def decimal (text : List Char) : Option (List Char) :=
  let behind := digitPart text
  let whole := text.take (text.length - behind.length)
  let rest := imaginary (exponent (fraction behind))
  if rest = behind ∧ whole.head? = some '0' ∧ (whole.any fun c => c != '0' && c != '_') = true then
    none
  else some rest

/-- The digits of a number with a base. -/
def based (isDigit : Char → Bool) (text : List Char) : Option (List Char) :=
  if digits isDigit text = text then none else some (digits isDigit text)

/-- A binary digit. -/
def isBinDigit (c : Char) : Bool :=
  '0' ≤ c && c ≤ '1'

/-- An octal digit. -/
def isOctDigit (c : Char) : Bool :=
  '0' ≤ c && c ≤ '7'

/-- A hexadecimal digit. -/
def isHexDigit (c : Char) : Bool :=
  c.isDigit || ('a' ≤ c && c ≤ 'f') || ('A' ≤ c && c ≤ 'F')

/-- The keywords that may touch a number. -/
def keywordsBehindNumber : List String :=
  ["and", "else", "for", "if", "in", "is", "not", "or"]

/-- Whether a number may end before this text. -/
def endsNumber (text : List Char) : Bool :=
  !text.head?.any isNameChar || keywordsBehindNumber.any fun word => word.toList.isPrefixOf text

/-- What stands behind the number that a text begins with. -/
def number (text : List Char) : Option (List Char) :=
  Option.filter endsNumber <|
    match text with
    | '0' :: c :: rest =>
        if c = 'x' ∨ c = 'X' then based isHexDigit rest
        else if c = 'o' ∨ c = 'O' then based isOctDigit rest
        else if c = 'b' ∨ c = 'B' then based isBinDigit rest
        else decimal text
    | _ => decimal text

/-- Whether a text begins like a number. -/
def beginsNumber : List Char → Bool
  | '.' :: d :: _ => d.isDigit
  | c :: _ => c.isDigit
  | [] => false

/-! ## Words -/

/-- The operators and delimiters, the longest first. -/
def operators : List String :=
  ["**=", "//=", ">>=", "<<=", "...", "!=", "%=", "&=", "**", "*=", "+=", "-=", "->", "//",
    "/=", ":=", "<<", "<=", "==", ">=", ">>", "@=", "^=", "|=", "%", "&", "(", ")", "*", "+",
    ",", "-", ".", "/", ":", ";", "<", "=", ">", "@", "[", "]", "^", "\x7b", "|", "\x7d", "~"]

/-- The prefixes of a string, in lower case. -/
def stringPrefixes : List String :=
  ["r", "u", "b", "f", "br", "rb", "fr", "rf"]

section

variable (isIdentifier : List Char → Bool)

/-- The word that a text begins with. -/
def firstWord (text : List Char) : Option Word :=
  if beginsNumber text then
    (number text).map fun behind => ⟨.number, text.take (text.length - behind.length)⟩
  else if text.head?.any isNameChar then
    let name := text.takeWhile isNameChar
    if name.all (fun c => c.toNat < 128) || isIdentifier name then some ⟨.name, name⟩ else none
  else
    (operators.find? fun operator => operator.toList.isPrefixOf text).map fun operator =>
      ⟨.operator, operator.toList⟩

/-- The words of names and signs that touch, of which the first `skipped` characters
belong to a word before them. -/
def words : Nat → List Char → Option (List Word)
  | _, [] => some []
  | skipped + 1, _ :: text => words skipped text
  | 0, c :: text => do
      let first ← firstWord isIdentifier (c :: text)
      let others ← words (first.spelling.length - 1) text
      some (first :: others)

/-- Whether a word that touches a literal is a part of it. -/
def isStringPrefix (word : Word) : Bool :=
  word.kind = .name && stringPrefixes.any fun known =>
    known.toList == word.spelling.map Char.toLower

/-- A literal behind the words that touch each other before it. -/
def withLiteral (before : List Word) (literal : Piece) : List Word :=
  match before.getLast? with
  | some last =>
      if literal.touching && isStringPrefix last then
        before.dropLast ++ [⟨.string, last.spelling ++ literal.spelling⟩]
      else before ++ [⟨.string, literal.spelling⟩]
  | none => [⟨.string, literal.spelling⟩]

/-- The words of a line, of which `run` is read of the names and signs that touch. -/
def lineWords : List Char → List Piece → Option (List Word)
  | run, [] => words isIdentifier 0 run
  | run, piece :: rest =>
      if piece.kind = .literal then do
        let before ← words isIdentifier 0 run
        let others ← lineWords [] rest
        some (withLiteral before piece ++ others)
      else if piece.touching then lineWords (run ++ piece.spelling) rest
      else do
        let before ← words isIdentifier 0 run
        let others ← lineWords piece.spelling rest
        some (before ++ others)

end

variable {isIdentifier : List Char → Bool}

/-- A literal that begins a line is a string of its own. -/
theorem lineWords_literal (touching : Bool) (spelling : List Char) (rest : List Piece) :
    lineWords isIdentifier [] (⟨.literal, touching, spelling⟩ :: rest) =
      (lineWords isIdentifier [] rest).map (⟨.string, spelling⟩ :: ·) := by
  simp only [lineWords, ↓reduceIte, words, withLiteral, List.getLast?_nil,
    Option.bind_eq_bind, Option.bind_some, List.cons_append, List.nil_append]
  cases lineWords isIdentifier [] rest with
  | none => rfl
  | some others => rfl

/-! ## More names -/

section More

variable {fewer : List Char → Bool} (more : ∀ name, fewer name = true → isIdentifier name = true)

include more

theorem firstWord_more {text : List Char} {word : Word}
    (found : firstWord fewer text = some word) : firstWord isIdentifier text = some word := by
  unfold firstWord at found ⊢
  split
  case isTrue begins => rwa [if_pos begins] at found
  case isFalse begins =>
    rw [if_neg begins] at found
    split
    case isTrue isName =>
      rw [if_pos isName] at found
      simp only [Option.ite_none_right_eq_some, Bool.or_eq_true] at found ⊢
      exact ⟨found.1.imp_right (more _), found.2⟩
    case isFalse other => rwa [if_neg other] at found

theorem words_more {text : List Char} {skipped : Nat} {found : List Word}
    (cut : words fewer skipped text = some found) :
    words isIdentifier skipped text = some found := by
  induction text generalizing skipped found with
  | nil =>
      cases skipped <;> exact cut
  | cons c text ih =>
      cases skipped with
      | succ skipped => exact ih cut
      | zero =>
          simp only [words, Option.bind_eq_bind, Option.bind_eq_some_iff] at cut ⊢
          obtain ⟨first, begins, others, rest, same⟩ := cut
          exact ⟨first, firstWord_more more begins, others, ih rest, same⟩

/-- With more names, a line is cut as before. -/
theorem lineWords_more {pieces : List Piece} {run : List Char} {found : List Word}
    (cut : lineWords fewer run pieces = some found) :
    lineWords isIdentifier run pieces = some found := by
  induction pieces generalizing run found with
  | nil => exact words_more more cut
  | cons piece pieces ih =>
      unfold lineWords at cut ⊢
      split
      case isTrue literal =>
        simp only [if_pos literal, Option.bind_eq_bind, Option.bind_eq_some_iff] at cut ⊢
        obtain ⟨before, begins, others, rest, same⟩ := cut
        exact ⟨before, words_more more begins, others, ih rest, same⟩
      case isFalse other =>
        rw [if_neg other] at cut
        split
        case isTrue touching =>
          rw [if_pos touching] at cut
          exact ih cut
        case isFalse apart =>
          simp only [if_neg apart, Option.bind_eq_bind, Option.bind_eq_some_iff] at cut ⊢
          obtain ⟨before, begins, others, rest, same⟩ := cut
          exact ⟨before, words_more more begins, others, ih rest, same⟩

end More

end ClotoCore.Python
