import ClotoCore.Scanning.Tokens

/-!
# Shell command lines

The tokens of a POSIX shell's input.  A word goes on through quotes, backslashes and
substitutions, an operator as long as an operator is spelled, and a comment is part of a
gap.  Whether a word holds a command substitution is kept with it.

A backslash covers any character behind it, also in double quotes, and joins no lines; a
here-document is not read.
-/

namespace ClotoCore.Shell

open ClotoCore.Scanning (sourceOf Language)

/-! ## Tokens -/

/-- What a token is. -/
inductive Kind where
  | word (substitutes : Bool)
  | ioNumber
  | operator
  deriving DecidableEq, Repr

/-- A token of a command line. -/
abbrev Token :=
  Scanning.Token Kind

/-- The operators that redirect input or output. -/
def redirections : List (List Char) :=
  [['<'], ['>'], ['<', '<'], ['>', '>'], ['<', '&'], ['>', '&'], ['<', '>'], ['<', '<', '-'],
    ['>', '|']]

/-- The operators that begin, separate or end commands. -/
def controls : List (List Char) :=
  [['&'], ['|'], [';'], ['('], [')'], ['\n'], ['&', '&'], ['|', '|'], [';', ';']]

/-- The operators of a command line. -/
def operators : List (List Char) :=
  controls ++ redirections

/-! ## Reading a command line -/

/-- The blanks between tokens. -/
def isBlank (c : Char) : Bool :=
  c = ' ' || c = '\t'

/-- The characters that operators begin with. -/
def isOperatorChar (c : Char) : Bool :=
  ['&', '|', ';', '(', ')', '<', '>', '\n'].contains c

/-- What ends a word outside quotes. -/
def isDelimiter (c : Char) : Bool :=
  isBlank c || isOperatorChar c

/-- What a word is within. -/
inductive Context where
  | single
  | double
  | braces
  | command
  | backquote
  deriving DecidableEq, Repr

/-- How far a word is read. -/
structure Reading where
  contexts : List Context
  escaped : Bool
  /-- The last character is a dollar sign that may begin an expansion. -/
  dollar : Bool
  substitutes : Bool
  deriving DecidableEq, Repr

/-- What the next character is read as. -/
inductive Mode where
  | between
  | comment
  | operator (spelling : List Char)
  | word (spelling : List Char) (reading : Reading)
  deriving DecidableEq, Repr

/-- What is read of a token so far. -/
def Mode.spelling : Mode → List Char
  | .operator spelling => spelling
  | .word spelling _ => spelling
  | _ => []

/-- A command line that is read so far. -/
abbrev Scan :=
  Scanning.Scan Kind Mode

/-- What a word is within behind a character that nothing covers. -/
def Reading.contextsBehind (reading : Reading) (c : Char) : List Context :=
  let top := reading.contexts.head?
  if c = '\'' && top ≠ some .double then .single :: reading.contexts
  else if c = '"' then
    if top = some .double then reading.contexts.tail else .double :: reading.contexts
  else if c = '\x60' then
    if top = some .backquote then reading.contexts.tail else .backquote :: reading.contexts
  else if c = '{' && reading.dollar then .braces :: reading.contexts
  else if c = '}' && top = some .braces then reading.contexts.tail
  else if c = '(' && (reading.dollar || top = some .command) then .command :: reading.contexts
  else if c = ')' && top = some .command then reading.contexts.tail
  else reading.contexts

/-- A character of a word outside single quotes that no backslash covers. -/
def Reading.next (reading : Reading) (c : Char) : Reading where
  contexts := reading.contextsBehind c
  escaped := c = '\\'
  dollar := c = '$' && !reading.dollar
  substitutes := reading.substitutes || (c = '(' && reading.dollar) || c = '\x60'

/-- A character of a word. -/
def Reading.step (reading : Reading) (c : Char) : Reading :=
  if reading.escaped then { reading with escaped := false, dollar := false }
  else if reading.contexts.head? = some .single then
    { reading with
      contexts := if c = '\'' then reading.contexts.tail else reading.contexts
      dollar := false }
  else reading.next c

/-- A word ends before a delimiter that nothing covers. -/
def Reading.endsBefore (reading : Reading) (c : Char) : Bool :=
  !reading.escaped && reading.contexts.isEmpty && isDelimiter c && !(reading.dollar && c = '(')

/-- The reading of a word before its first character. -/
def Reading.start : Reading where
  contexts := []
  escaped := false
  dollar := false
  substitutes := false

/-- A character that belongs to a word. -/
def keepWord (scan : Scan) (spelling : List Char) (reading : Reading) (c : Char) : Scan :=
  scan.keep (.word (spelling ++ [c]) (reading.step c))

/-- The first character behind a token or in a gap. -/
def next (scan : Scan) (c : Char) : Scan :=
  if isBlank c then scan.skip .between [c]
  else if isOperatorChar c then scan.keep (.operator [c])
  else if c = '#' then scan.skip .comment [c]
  else keepWord scan [] .start c

/-- The kind of a word: digits before a redirection are a number. -/
def wordKind (spelling : List Char) (reading : Reading) (c : Char) : Kind :=
  if spelling.all Char.isDigit && (c = '<' || c = '>') then .ioNumber
  else .word reading.substitutes

/-- One character of a command line. -/
def step (scan : Scan) (c : Char) : Scan :=
  match scan.state with
  | .between => next scan c
  | .comment => if c = '\n' then next scan c else scan.skip .comment [c]
  | .operator spelling =>
      if operators.contains (spelling ++ [c]) then scan.keep (.operator (spelling ++ [c]))
      else next (scan.close .operator spelling .between) c
  | .word spelling reading =>
      if reading.endsBefore c then
        next (scan.close (wordKind spelling reading c) spelling .between) c
      else keepWord scan spelling reading c

/-- The end of a command line, which may not leave a word in quotes or substitutions. -/
def finish (scan : Scan) : Option Scan :=
  match scan.state with
  | .operator spelling => some (scan.close .operator spelling .between)
  | .word spelling reading =>
      if reading.escaped || !reading.contexts.isEmpty then none
      else some (scan.close (.word reading.substitutes) spelling .between)
  | _ => some scan

/-- A command line before its first character. -/
def start : Scan :=
  ⟨[], [], .between⟩

/-- The tokens of a command line, if its quotes and substitutions are closed. -/
def tokenize (text : List Char) : Option (List Token) :=
  (finish (text.foldl step start)).map Scanning.Scan.tokens

/-! ## Tokens give back the text -/

/-- What begins a command substitution. -/
def HoldsSubstitution (text : List Char) : Prop :=
  ['$', '('] <:+: text ∨ '\x60' ∈ text

/-- What is known of a word that is read. -/
structure WordOpened (spelling : List Char) (reading : Reading) : Prop where
  nonempty : spelling ≠ []
  dollar : reading.dollar = true → ['$'] <:+ spelling
  substitutes : reading.substitutes = true → HoldsSubstitution spelling

/-- What is known between the tokens, for each way to read on. -/
def Opened (gap : List Char) : Mode → Prop
  | .between => ∀ c ∈ gap, isBlank c = true
  | .comment => True
  | .operator spelling => spelling ∈ operators
  | .word spelling reading => (∀ c ∈ gap, isBlank c = true) ∧ WordOpened spelling reading

/-- Operators are spelled as such, and a word stands behind blanks and ends at a
delimiter. -/
def language : Language Kind Mode where
  held := Mode.spelling
  wellFormed token :=
    match token.kind with
    | .operator => token.spelling ∈ operators
    | .ioNumber => True
    | .word substitutes => (∀ c ∈ token.gap, isBlank c = true) ∧ token.spelling ≠ [] ∧
        (substitutes = true → HoldsSubstitution token.spelling)
  stop kind := if kind = .operator then none else some isDelimiter
  opened := Opened

variable {scan : Scan} {spelling text : List Char} {reading : Reading} {c : Char}

theorem HoldsSubstitution.mono {part : List Char} (holds : HoldsSubstitution part)
    (inside : part <:+: text) : HoldsSubstitution text :=
  holds.imp (fun found => found.trans inside) fun mem => inside.subset mem

/-- One more character of a word. -/
theorem WordOpened.step (opened : spelling = [] ∧ reading = .start ∨ WordOpened spelling reading)
    (c : Char) : WordOpened (spelling ++ [c]) (reading.step c) := by
  have before : spelling <:+: spelling ++ [c] := List.infix_append' [] spelling [c]
  have kept : reading.substitutes = true → HoldsSubstitution (spelling ++ [c]) := by
    intro substitutes
    rcases opened with ⟨-, rfl⟩ | opened
    · cases substitutes
    · exact (opened.substitutes substitutes).mono before
  have opening : reading.dollar = true → c = '(' → HoldsSubstitution (spelling ++ [c]) := by
    rintro dollar rfl
    rcases opened with ⟨-, rfl⟩ | opened
    · cases dollar
    · obtain ⟨front, rfl⟩ := opened.dollar dollar
      exact Or.inl ⟨front, [], by simp⟩
  have quoting : c = '\x60' → HoldsSubstitution (spelling ++ [c]) := by
    rintro rfl
    exact Or.inr (by simp)
  unfold Reading.step
  split
  · exact ⟨by simp, nofun, kept⟩
  split
  · exact ⟨by simp, nofun, kept⟩
  · refine ⟨by simp, fun dollar => ?_, fun substitutes => ?_⟩
    · simp only [Reading.next, Bool.and_eq_true, decide_eq_true_eq] at dollar
      exact ⟨spelling, by rw [dollar.1]⟩
    · simp only [Reading.next, Bool.or_eq_true, Bool.and_eq_true, decide_eq_true_eq] at substitutes
      rcases substitutes with (already | ⟨paren, dollar⟩) | backquote
      · exact kept already
      · exact opening dollar paren
      · exact quoting backquote

theorem ready_next (ready : language.Ready scan [] text c)
    (blank : c ≠ '\n' → ∀ d ∈ scan.gap, isBlank d = true) :
    language.Reads (next scan c) (text ++ [c]) := by
  unfold next
  split
  · next isBlankHere =>
    refine ready.skip rfl fun d mem => ?_
    rcases List.mem_append.mp mem with before | last
    · refine blank ?_ d before
      rintro rfl
      exact absurd isBlankHere (by decide)
    · rw [List.mem_singleton.mp last]
      exact isBlankHere
  split
  · next isOperator =>
    refine ready.keep rfl ?_
    have checked : ['&', '|', ';', '(', ')', '<', '>', '\n'].all
        (fun d => decide ([d] ∈ operators)) = true := by
      decide
    have single : ∀ d ∈ ['&', '|', ';', '(', ')', '<', '>', '\n'], [d] ∈ operators :=
      fun d mem => of_decide_eq_true (List.all_eq_true.mp checked d mem)
    exact single c (List.contains_iff_mem.mp isOperator)
  · next notOperator =>
    have other : c ≠ '\n' := by
      rintro rfl
      exact notOperator (by decide)
    split
    · exact ready.skip rfl trivial
    · exact ready.keep rfl ⟨blank other, WordOpened.step (Or.inl ⟨rfl, rfl⟩) c⟩

/-- A word that the delimiter behind it ends. -/
theorem ready_close_word (ready : language.Ready scan spelling text c)
    (blank : ∀ d ∈ scan.gap, isBlank d = true) (opened : WordOpened spelling reading)
    (ends : reading.endsBefore c = true) :
    language.Ready (scan.close (wordKind spelling reading c) spelling .between) [] text c := by
  simp only [Reading.endsBefore, Bool.and_eq_true] at ends
  refine ready.close (fun stop stops => ?_) ?_
  · have same : isDelimiter = stop := by
      unfold wordKind at stops
      split at stops
      · exact Option.some.inj stops
      · exact Option.some.inj stops
    rw [← same]
    exact ends.1.2
  · unfold wordKind
    split
    · trivial
    · exact ⟨blank, opened.nonempty, opened.substitutes⟩

/-- One character read. -/
theorem reads_step (reads : language.Reads scan text) :
    language.Reads (step scan c) (text ++ [c]) := by
  have ready := reads.ready c
  have opened := reads.opened
  change language.Ready scan scan.state.spelling text c at ready
  change Opened scan.gap scan.state at opened
  unfold step
  split
  · next between =>
    rw [between] at ready opened
    exact ready_next ready fun _ => opened
  · next comment =>
    rw [comment] at ready
    split
    · next lineEnd => exact ready_next ready fun other => absurd lineEnd other
    · exact ready.skip rfl trivial
  · next spelling operator =>
    rw [operator] at ready opened
    split
    · next longer => exact ready.keep rfl (List.contains_iff_mem.mp longer)
    · exact ready_next (ready.close (by simp [language]) opened) fun _ => nofun
  · next spelling reading word =>
    rw [word] at ready opened
    split
    · next ends => exact ready_next (ready_close_word ready opened.1 opened.2 ends) fun _ => nofun
    · exact ready.keep rfl ⟨opened.1, WordOpened.step (Or.inr opened.2) c⟩

/-- The tokens of a command line give it back. -/
theorem tokenize_cut {tokens : List Token} (cut : tokenize text = some tokens) :
    language.Cut tokens text := by
  simp only [tokenize, Option.map_eq_some_iff] at cut
  obtain ⟨done, finished, rfl⟩ := cut
  have begins : language.Reads start [] := ⟨rfl, nofun, trivial, nofun⟩
  have reads : language.Reads (text.foldl step start) text := by
    simpa using begins.fold (fun reads => reads_step reads)
  generalize text.foldl step start = scan at finished reads
  have opened := reads.opened
  change Opened scan.gap scan.state at opened
  unfold finish at finished
  split at finished
  · next spelling operator =>
    cases finished
    rw [operator] at opened
    exact reads.cut_close (by simp [language, operator, Mode.spelling]) opened
  · next spelling reading word =>
    rw [word] at opened
    split at finished
    · cases finished
    · cases finished
      exact reads.cut_close (by simp [language, word, Mode.spelling])
        ⟨opened.1, opened.2.nonempty, opened.2.substitutes⟩
  · cases finished
    exact reads.cut

/-! ## Simple commands -/

/-- The words of a command that is nothing but words and redirections. -/
def simpleWords : List Token → Option (List Token)
  | [] => some []
  | token :: rest =>
      match token.kind with
      | .word _ => (simpleWords rest).map (token :: ·)
      | .ioNumber => simpleWords rest
      | .operator =>
          if redirections.contains token.spelling then
            match rest with
            | [] => none
            | target :: rest =>
                match target.kind with
                | .word _ => simpleWords rest
                | _ => none
          else none

/-- The words that begin or go on with other commands, where a command is expected. -/
def reservedWords : List (List Char) :=
  ["!", "\x7b", "\x7d", "case", "do", "done", "elif", "else", "esac", "fi", "for", "if", "in",
    "then", "until", "while"].map String.toList

/-- One simple command, with or without redirections. -/
def IsSimpleCommand (tokens : List Token) : Prop :=
  ∃ words, simpleWords tokens = some words ∧
    ∀ first ∈ words.head?, first.spelling ∉ reservedWords

/-- A redirection behind which no word stands. -/
def Dangles (tokens : List Token) : Prop :=
  ∃ before token after, tokens = before ++ token :: after ∧ token.kind = .operator ∧
    token.spelling ∈ redirections ∧ ∀ target ∈ after.head?, ∀ substitutes,
      target.kind ≠ .word substitutes

theorem Dangles.cons {tokens : List Token} (dangles : Dangles tokens) (first : Token) :
    Dangles (first :: tokens) := by
  obtain ⟨before, token, after, rfl, rest⟩ := dangles
  exact ⟨first :: before, token, after, rfl, rest⟩

/-- Words and redirections are a simple command, unless a redirection lacks its word. -/
theorem simpleWords_isSome {tokens : List Token} (complete : ¬Dangles tokens)
    (plain : ∀ token ∈ tokens, token.kind = .operator → token.spelling ∈ redirections) :
    ∃ words, simpleWords tokens = some words := by
  induction tokens using simpleWords.induct with
  | case1 => exact ⟨[], rfl⟩
  | case2 token rest substitutes isWord ih =>
      obtain ⟨words, found⟩ := ih (fun dangles => complete (dangles.cons token))
        fun other mem => plain other (List.mem_cons_of_mem _ mem)
      refine ⟨token :: words, ?_⟩
      rw [simpleWords.eq_def]
      simp only [isWord, found, Option.map_some]
  | case3 token rest isNumber ih =>
      obtain ⟨words, found⟩ := ih (fun dangles => complete (dangles.cons token))
        fun other mem => plain other (List.mem_cons_of_mem _ mem)
      refine ⟨words, ?_⟩
      rw [simpleWords.eq_def]
      simp only [isNumber, found]
  | case4 token isOperator redirects =>
      exact absurd ⟨[], token, [], rfl, isOperator, List.contains_iff_mem.mp redirects, nofun⟩
        complete
  | case5 token isOperator redirects target rest substitutes isWord ih =>
      obtain ⟨words, found⟩ := ih
        (fun dangles => complete ((dangles.cons target).cons token))
        fun other mem => plain other (List.mem_cons_of_mem _ (List.mem_cons_of_mem _ mem))
      exact ⟨words, by simp only [simpleWords, isOperator, redirects, if_true, isWord, found]⟩
  | case6 token isOperator redirects target rest notWord =>
      refine absurd ⟨[], token, target :: rest, rfl, isOperator,
        List.contains_iff_mem.mp redirects, ?_⟩ complete
      intro other first substitutes isWord
      cases first
      exact notWord substitutes isWord
  | case7 token rest isOperator other =>
      exact absurd (List.contains_iff_mem.mpr (plain token List.mem_cons_self isOperator)) other

end ClotoCore.Shell
