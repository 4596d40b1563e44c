import ClotoCore.Encoding.Text
import ClotoCore.Scanning.Tokens

/-!
# Python source text

The tokens of a source text.  A gap is blanks, comments and joined lines, and a line end
inside brackets belongs to a gap.

A prefix of a string is a name of its own, since it does not change where the string
ends.  An encoding declaration is not read, and a character that no Python text may
hold is a sign.
-/

namespace ClotoCore.Python

open ClotoCore.Scanning (sourceOf Language)

/-! ## Tokens -/

/-- What a token is. -/
inductive Kind where
  | name
  | literal
  | sign
  | lineEnd
  deriving DecidableEq, Repr

/-- A token of a source text. -/
abbrev Token :=
  Scanning.Token Kind

/-! ## Characters -/

/-- The characters that end a line. -/
def isLineEnd (c : Char) : Bool :=
  c == '\n' || c == '\r'

/-- The blanks between the tokens of a line. -/
def isBlank (c : Char) : Bool :=
  c == ' ' || c == '\t' || c == '\x0c'

/-- The characters of a name. -/
def isNameChar (c : Char) : Bool :=
  c.isAlphanum || c == '_' || (128 ≤ c.toNat && !Encoding.isWhitespace c)

theorem ascii_of_isAlphanum {c : Char} (alphanum : c.isAlphanum = true) : c.toNat < 128 := by
  have spelled : (decide (65 ≤ c.val ∧ c.val ≤ 90) ||
    (decide (97 ≤ c.val) && decide (c.val ≤ 122)) ||
      (decide (48 ≤ c.val) && decide (c.val ≤ 57))) = true := alphanum
  simp only [UInt32.le_iff_toNat_le, Bool.or_eq_true, Bool.and_eq_true, decide_eq_true_eq]
    at spelled
  change ((65 ≤ c.toNat ∧ c.toNat ≤ 90) ∨ (97 ≤ c.toNat ∧ c.toNat ≤ 122)) ∨
    (48 ≤ c.toNat ∧ c.toNat ≤ 57) at spelled
  omega

/-- Names hold no white space. -/
theorem isWhitespace_of_isNameChar {c : Char} (isName : isNameChar c = true) :
    Encoding.isWhitespace c = false := by
  have small : ∀ n < 128, isNameChar (Char.ofNat n) = true →
      Encoding.isWhitespace (Char.ofNat n) = false := by
    decide +kernel
  by_cases ascii : c.toNat < 128
  · have blank := small c.toNat ascii
    rw [Char.ofNat_toNat] at blank
    exact blank isName
  · have notAlphanum : c.isAlphanum ≠ true := fun alphanum => ascii (ascii_of_isAlphanum alphanum)
    have notUnderscore : c ≠ '_' := by
      rintro rfl
      exact ascii (by decide)
    simp only [isNameChar, Bool.or_eq_true, beq_iff_eq, Bool.and_eq_true, Bool.not_eq_true']
      at isName
    rcases isName with (alphanum | underscore) | ⟨-, blank⟩
    · exact absurd alphanum notAlphanum
    · exact absurd underscore notUnderscore
    · exact blank

/-- The number of open brackets behind a sign. -/
def nesting (depth : Nat) (c : Char) : Nat :=
  if c = '(' ∨ c = '[' ∨ c = '{' then depth + 1
  else if c = ')' ∨ c = ']' ∨ c = '}' then depth - 1
  else depth

/-! ## Reading a text -/

/-- What a backslash in a one-line string still covers. -/
inductive Escape where
  | off
  | slash
  | slashReturn
  deriving DecidableEq, Repr

/-- A token whose end is not read yet. -/
inductive Part where
  | name
  | quote (mark : Char)
  | quotes (mark : Char)
  | short (mark : Char) (escape : Escape)
  | long (mark : Char) (run : Nat) (escaped : Bool)
  deriving DecidableEq, Repr

/-- What the next character is read as. -/
inductive Mode where
  | between
  | comment
  | joining
  | joined
  | within (part : Part) (spelling : List Char)
  deriving DecidableEq, Repr

/-- What is read of a token so far. -/
def Mode.spelling : Mode → List Char
  | .within _ spelling => spelling
  | _ => []

/-- The number of open brackets, and what the next character is read as. -/
structure State where
  depth : Nat
  mode : Mode
  deriving DecidableEq, Repr

/-- A source text that is read so far. -/
abbrev Scan :=
  Scanning.Scan Kind State

/-- A character that belongs to the gap. -/
def skip (scan : Scan) (mode : Mode) (c : Char) : Scan :=
  scan.skip ⟨scan.state.depth, mode⟩ [c]

/-- A character that belongs to the token that is read. -/
def keep (scan : Scan) (part : Part) (spelling : List Char) (c : Char) : Scan :=
  scan.keep ⟨scan.state.depth, .within part (spelling ++ [c])⟩

/-- A token that is read to its end. -/
def close (scan : Scan) (kind : Kind) (spelling : List Char) : Scan :=
  scan.close kind spelling ⟨scan.state.depth, .between⟩

/-- A sign, which may open or close a bracket. -/
def sign (scan : Scan) (c : Char) : Scan :=
  scan.close .sign [c] ⟨nesting scan.state.depth c, .between⟩

/-- The first character behind a token or in a gap. -/
def next (scan : Scan) (c : Char) : Scan :=
  if isNameChar c then keep scan .name [] c
  else if c = '\'' ∨ c = '"' then keep scan (.quote c) [] c
  else if c = '#' then skip scan .comment c
  else if c = '\\' then skip scan .joining c
  else if isBlank c then skip scan .between c
  else if isLineEnd c then
    if scan.state.depth = 0 then close scan .lineEnd [c] else skip scan .between c
  else sign scan c

/-- A character of a one-line string, which no line end may cut. -/
def shortText (scan : Scan) (mark : Char) (spelling : List Char) (c : Char) : Option Scan :=
  if c = mark then some (close scan .literal (spelling ++ [c]))
  else if isLineEnd c then none
  else some (keep scan (.short mark (if c = '\\' then .slash else .off)) spelling c)

/-- A character behind the beginning of a token. -/
def inside (scan : Scan) (spelling : List Char) (c : Char) : Part → Option Scan
  | .name =>
      some <| if isNameChar c then keep scan .name spelling c
        else next (close scan .name spelling) c
  | .quote mark =>
      if c = mark then some (keep scan (.quotes mark) spelling c)
      else shortText scan mark spelling c
  | .quotes mark =>
      some <| if c = mark then keep scan (.long mark 0 false) spelling c
        else next (close scan .literal spelling) c
  | .short mark .slash =>
      some (keep scan (.short mark (if c = '\r' then .slashReturn else .off)) spelling c)
  | .short mark .slashReturn =>
      if c = '\n' then some (keep scan (.short mark .off) spelling c)
      else shortText scan mark spelling c
  | .short mark .off => shortText scan mark spelling c
  | .long mark _ true => some (keep scan (.long mark 0 false) spelling c)
  | .long mark run false =>
      some <|
        if c = mark then
          if run = 2 then close scan .literal (spelling ++ [c])
          else keep scan (.long mark (run + 1) false) spelling c
        else keep scan (.long mark 0 (c == '\\')) spelling c

/-- One character of a text; there is no text if a line ends in a one-line string or a
backslash joins no lines. -/
def step (scan : Scan) (c : Char) : Option Scan :=
  match scan.state.mode with
  | .between => some (next scan c)
  | .comment => some (if isLineEnd c then next scan c else skip scan .comment c)
  | .joining =>
      if c = '\n' then some (skip scan .between c)
      else if c = '\r' then some (skip scan .joined c)
      else none
  | .joined => some (if c = '\n' then skip scan .between c else next scan c)
  | .within part spelling => inside scan spelling c part

/-- The end of a text. -/
def finish (scan : Scan) : Option Scan :=
  match scan.state.mode with
  | .joining => none
  | .within .name spelling => some (close scan .name spelling)
  | .within (.quotes _) spelling => some (close scan .literal spelling)
  | .within _ _ => none
  | _ => some scan

/-- The gap that a byte order mark is. -/
def byteOrderMark : List Char :=
  ['\uFEFF']

/-- A text before its first character. -/
def start (gap : List Char) : Scan :=
  ⟨[], gap, ⟨0, .between⟩⟩

/-- The tokens of a text, if it can be cut into tokens. -/
def tokenize (text : List Char) : Option (List Token) :=
  let mark := if byteOrderMark.isPrefixOf text then byteOrderMark else []
  (((text.drop mark.length).foldlM step (start mark)).bind finish).map Scanning.Scan.tokens

/-! ## Tokens give back the text -/

/-- The characters of a name. -/
def IsName (spelling : List Char) : Prop :=
  spelling ≠ [] ∧ ∀ c ∈ spelling, isNameChar c = true

theorem IsName.concat {spelling : List Char} {c : Char}
    (isName : ∀ d ∈ spelling, isNameChar d = true)
    (last : isNameChar c = true) : IsName (spelling ++ [c]) := by
  refine ⟨by simp, fun d mem => ?_⟩
  rcases List.mem_append.mp mem with mem | mem
  · exact isName d mem
  · rw [List.mem_singleton.mp mem]
    exact last

/-- Names are spelled with the characters of names and end where these end. -/
def language : Language Kind State where
  held state := state.mode.spelling
  wellFormed token := token.kind = .name → IsName token.spelling
  stop kind := if kind = .name then some fun c => !isNameChar c else none
  opened _ state := ∀ spelling, state.mode = .within .name spelling → IsName spelling

variable {scan : Scan} {spelling text : List Char} {c : Char} {kind : Kind}

theorem ready_skip (ready : language.Ready scan [] text c) {mode : Mode}
    (gap : mode.spelling = []) (notName : ∀ spelling, mode ≠ .within .name spelling) :
    language.Reads (skip scan mode c) (text ++ [c]) :=
  ready.skip gap fun spelling within => absurd within (notName spelling)

theorem ready_keep (ready : language.Ready scan spelling text c) {part : Part}
    (name : part = .name → isNameChar c = true ∧ ∀ d ∈ spelling, isNameChar d = true) :
    language.Reads (keep scan part spelling c) (text ++ [c]) := by
  refine ready.keep rfl fun whole within => ?_
  simp only [Mode.within.injEq] at within
  obtain ⟨isName, rfl⟩ := within
  exact .concat (name isName).2 (name isName).1

/-- A token that its last character ends. -/
theorem ready_closeWith (kind : Kind) (other : kind ≠ .name) (depth : Nat)
    (ready : language.Ready scan spelling text c) :
    language.Reads (scan.close kind (spelling ++ [c]) ⟨depth, .between⟩) (text ++ [c]) :=
  ready.closeWith (if_neg other) (fun name => absurd name other) rfl nofun

/-- A token that the character behind it ends. -/
theorem ready_close (ready : language.Ready scan spelling text c)
    (name : kind = .name → isNameChar c = false ∧ IsName spelling) :
    language.Ready (close scan kind spelling) [] text c := by
  refine ready.close (fun stop stops => ?_) fun isName => (name isName).2
  simp only [language, Option.ite_none_right_eq_some] at stops
  obtain ⟨isName, stops⟩ := stops
  rw [← Option.some.inj stops]
  simp [(name isName).1]

theorem ready_next (ready : language.Ready scan [] text c) :
    language.Reads (next scan c) (text ++ [c]) := by
  unfold next
  split
  case isTrue isName => exact ready_keep ready fun _ => ⟨isName, by simp⟩
  split
  · exact ready_keep ready nofun
  split
  · exact ready_skip ready rfl nofun
  split
  · exact ready_skip ready rfl nofun
  split
  · exact ready_skip ready rfl nofun
  split
  · split
    · exact ready_closeWith .lineEnd nofun _ ready
    · exact ready_skip ready rfl nofun
  · exact ready_closeWith .sign nofun _ ready

theorem ready_shortText (ready : language.Ready scan spelling text c) {mark : Char} {read : Scan}
    (step : shortText scan mark spelling c = some read) : language.Reads read (text ++ [c]) := by
  unfold shortText at step
  split at step
  · cases step
    exact ready_closeWith .literal nofun _ ready
  split at step
  · cases step
  · cases step
    exact ready_keep ready nofun

theorem ready_inside (ready : language.Ready scan spelling text c) {part : Part} {read : Scan}
    (name : part = .name → IsName spelling)
    (step : inside scan spelling c part = some read) : language.Reads read (text ++ [c]) := by
  unfold inside at step
  split at step
  case h_1 =>
    cases step
    split
    case isTrue isName => exact ready_keep ready fun _ => ⟨isName, (name rfl).2⟩
    case isFalse other =>
      exact ready_next (ready_close ready fun _ => ⟨by simpa using other, name rfl⟩)
  case h_2 =>
    split at step
    · cases step
      exact ready_keep ready nofun
    · exact ready_shortText ready step
  case h_3 =>
    cases step
    split
    · exact ready_keep ready nofun
    · exact ready_next (ready_close ready nofun)
  case h_4 =>
    cases step
    exact ready_keep ready nofun
  case h_5 =>
    split at step
    · cases step
      exact ready_keep ready nofun
    · exact ready_shortText ready step
  case h_6 => exact ready_shortText ready step
  case h_7 =>
    cases step
    exact ready_keep ready nofun
  case h_8 =>
    cases step
    split
    · split
      · exact ready_closeWith .literal nofun _ ready
      · exact ready_keep ready nofun
    · exact ready_keep ready nofun

/-- One character read. -/
theorem reads_step (reads : language.Reads scan text) {read : Scan}
    (step : step scan c = some read) : language.Reads read (text ++ [c]) := by
  have ready := reads.ready c
  change language.Ready scan scan.state.mode.spelling text c at ready
  unfold Python.step at step
  split at step
  case h_1 between =>
    cases step
    rw [between] at ready
    exact ready_next ready
  case h_2 comment =>
    cases step
    rw [comment] at ready
    split
    · exact ready_next ready
    · exact ready_skip ready rfl nofun
  case h_3 joining =>
    rw [joining] at ready
    split at step
    · cases step
      exact ready_skip ready rfl nofun
    split at step
    · cases step
      exact ready_skip ready rfl nofun
    · cases step
  case h_4 joined =>
    cases step
    rw [joined] at ready
    split
    · exact ready_skip ready rfl nofun
    · exact ready_next ready
  case h_5 part spelling within =>
    rw [within] at ready
    refine ready_inside ready (fun isName => ?_) step
    exact reads.opened spelling (isName ▸ within)

theorem reads_start (gap : List Char) : language.Reads (start gap) gap where
  source := by simp [start, language, Mode.spelling]
  wellFormed := nofun
  ends := trivial
  opened := nofun

/-- The tokens of a text give it back. -/
theorem tokenize_cut {text : List Char} {tokens : List Token}
    (cut : tokenize text = some tokens) : language.Cut tokens text := by
  simp only [tokenize, Option.map_eq_some_iff, Option.bind_eq_some_iff] at cut
  obtain ⟨done, ⟨scan, run, finished⟩, rfl⟩ := cut
  have reads : language.Reads scan text := by
    have read := (reads_start _).run (fun reads step => reads_step reads step) run
    split at read
    case isTrue marked =>
      obtain ⟨rest, rfl⟩ := List.isPrefixOf_iff_prefix.mp marked
      simpa using read
    case isFalse => simpa using read
  unfold finish at finished
  split at finished
  case h_1 => cases finished
  case h_2 spelling within =>
    cases finished
    refine reads.cut_close ?_ fun _ => reads.opened spelling within
    simp [language, within, Mode.spelling]
  case h_3 mark spelling within =>
    cases finished
    refine reads.cut_close ?_ nofun
    simp [language, within, Mode.spelling]
  case h_4 => cases finished
  case h_5 =>
    cases finished
    exact reads.cut

section Cut

variable {tokens before after : List Token} {token : Token}

/-- The names of a text are spelled with the characters of names. -/
theorem cut_name (cut : language.Cut tokens text) (mem : token ∈ tokens)
    (name : token.kind = .name) : IsName token.spelling :=
  cut.wellFormed token mem name

/-- A name ends where its characters end. -/
theorem cut_name_ends (cut : language.Cut tokens text)
    (split : tokens = before ++ token :: after) (name : token.kind = .name) {rest : List Char}
    (whole : text = sourceOf (before ++ [token]) ++ rest) {c : Char} {more : List Char}
    (starts : rest = c :: more) : isNameChar c = false := by
  have stopped := cut.ends before token after rest split (fun c => !isNameChar c)
    (by simp [language, name]) whole c more starts
  simpa using stopped

end Cut

end ClotoCore.Python
