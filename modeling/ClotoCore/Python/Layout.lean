import ClotoCore.Python.Words
import Mathlib.Data.List.TakeWhile

/-!
# Lines and blocks

The lexemes of a source text: the words of its lines, where a line ends, and where a block
of lines begins and ends.  A text that ends in no line end is read as if it did.

Texts that end between two lines are read one after the other: the second adds its own
lexemes to those of the first, apart from the blocks that its first line leaves.
-/

namespace ClotoCore.Python

/-- A lexeme of a source text. -/
inductive Lexeme where
  | word (word : Word)
  | newline
  | indent
  | dedent
  deriving DecidableEq, Repr

/-! ## Indentation -/

/-- How far a line is indented: with a tab up to every eighth column, and with a tab as
one column. -/
structure Column where
  wide : Nat
  narrow : Nat
  deriving DecidableEq, Repr

/-- The left margin. -/
def margin : Column :=
  ⟨0, 0⟩

/-- The column behind a character. -/
def Column.advance (column : Column) (c : Char) : Column :=
  if c = '\t' then ⟨(column.wide / 8 + 1) * 8, column.narrow + 1⟩
  else if c = '\x0c' then margin
  else ⟨column.wide + 1, column.narrow + 1⟩

/-- The column of the first token of a line; joined lines do not indent it. -/
def indentation (gap : List Char) : Column :=
  (gap.takeWhile isBlank).foldl Column.advance margin

/-- A block of indented lines. -/
structure Block extends Column where
  positive : 0 < wide
  deriving DecidableEq, Repr

/-! ## Reading the lines -/

/-- What is laid out so far: the lexemes, the open blocks and brackets, the innermost
first, and the pieces of the line that is read. -/
structure Layout where
  lexemes : List Lexeme
  blocks : List Block
  brackets : List Char
  line : List Piece
  deriving DecidableEq, Repr

namespace Layout

/-- A text of which nothing is read. -/
def empty : Layout :=
  ⟨[], [], [], []⟩

/-- The column of the innermost block. -/
def column (blocks : List Block) : Column :=
  (blocks.head?.map Block.toColumn).getD margin

/-- The first token of a line. -/
def openLine (layout : Layout) (target : Column) : Option Layout :=
  if deeper : (column layout.blocks).wide < target.wide then
    if (column layout.blocks).narrow < target.narrow then
      some { layout with
        lexemes := layout.lexemes ++ [.indent]
        blocks := ⟨target, Nat.zero_lt_of_lt deeper⟩ :: layout.blocks }
    else none
  else
    let kept := layout.blocks.dropWhile fun block => decide (target.wide < block.wide)
    if column kept = target then
      some { layout with
        lexemes := layout.lexemes ++
          List.replicate (layout.blocks.length - kept.length) .dedent
        blocks := kept }
    else none

/-- The bracket that a bracket closes. -/
def opener : Char → Option Char
  | ')' => some '('
  | ']' => some '['
  | '}' => some '{'
  | _ => none

/-- The open brackets behind a token. -/
def nest (brackets : List Char) (token : Token) : Option (List Char) :=
  match token.kind, token.spelling with
  | .sign, [c] =>
      if c = '(' ∨ c = '[' ∨ c = '{' then some (c :: brackets)
      else
        match opener c with
        | some opened => if brackets.head? = some opened then some brackets.tail else none
        | none => some brackets
  | _, _ => some brackets

section

variable (isIdentifier : List Char → Bool)

/-- A line end, which ends no line if there is no token before it. -/
def closeLine (layout : Layout) : Option Layout :=
  if layout.line = [] then some layout
  else
    (lineWords isIdentifier [] layout.line).map fun words =>
      { layout with
        lexemes := layout.lexemes ++ words.map .word ++ [.newline]
        line := [] }

/-- A token within a line. -/
def add (layout : Layout) (token : Token) : Option Layout :=
  (nest layout.brackets token).map fun brackets =>
    { layout with
      brackets
      line := layout.line ++ [⟨token.kind, token.gap.isEmpty, token.spelling⟩] }

/-- One token of a text. -/
def place (layout : Layout) (token : Token) : Option Layout :=
  if token.kind = .lineEnd then closeLine isIdentifier layout
  else if layout.line = [] then
    (openLine layout (indentation token.gap)).bind fun opened => add opened token
  else add layout token

end

/-- The end of a text, which ends all blocks. -/
def finish (layout : Layout) : Option (List Lexeme) :=
  if layout.brackets = [] ∧ layout.line = [] then
    some (layout.lexemes ++ List.replicate layout.blocks.length .dedent)
  else none

end Layout

/-- A text with a line end at its end. -/
def ended (text : List Char) : List Char :=
  if text = [] ∨ text.getLast?.any isLineEnd = true then text else text ++ ['\n']

theorem ended_eq (text : List Char) : ∃ ends, ended text = text ++ ends := by
  unfold ended
  split
  · exact ⟨[], by simp⟩
  · exact ⟨['\n'], rfl⟩

section

variable (isIdentifier : List Char → Bool)

/-- A text that is laid out behind what stands before it, if it ends between two lines. -/
def layOut (text : List Char) (layout : Layout) : Option Layout := do
  let scan ← text.foldlM step (start [])
  if scan.gap = [] ∧ scan.state = ⟨0, .between⟩ then
    scan.tokens.foldlM (Layout.place isIdentifier) layout
  else none

/-- The lexemes of a source text without an encoding declaration, if it has no error. -/
def lex (text : List Char) : Option (List Lexeme) :=
  if '\x00' ∈ text then none
  else (layOut isIdentifier (ended text) Layout.empty).bind Layout.finish

end

variable {isIdentifier : List Char → Bool}

/-! ## Reading behind other tokens -/

/-- A map that each step commutes with. -/
theorem foldlM_map_comm {α σ : Type} {step : σ → α → Option σ} {map : σ → σ}
    (comm : ∀ state a, step (map state) a = (step state a).map map) (items : List α)
    (state : σ) : items.foldlM step (map state) = (items.foldlM step state).map map := by
  induction items generalizing state with
  | nil => rfl
  | cons a items ih =>
      simp only [List.foldlM_cons, comm, Option.bind_eq_bind]
      cases step state a with
      | none => rfl
      | some next => exact ih next

section Behind

variable (before : List Token) (scan : Scan) (mode : Mode) (part : Part) (kind : Kind)
  (spelling : List Char) (mark c : Char)

/-- A scan behind other tokens. -/
def behind : Scan :=
  { scan with tokens := before ++ scan.tokens }

@[simp]
theorem behind_state : (behind before scan).state = scan.state :=
  rfl

@[simp]
theorem skip_behind : skip (behind before scan) mode c = behind before (skip scan mode c) :=
  rfl

@[simp]
theorem keep_behind :
    keep (behind before scan) part spelling c = behind before (keep scan part spelling c) :=
  rfl

@[simp]
theorem close_behind :
    close (behind before scan) kind spelling = behind before (close scan kind spelling) := by
  simp [close, Scanning.Scan.close, behind]

@[simp]
theorem sign_behind : sign (behind before scan) c = behind before (sign scan c) := by
  simp [sign, Scanning.Scan.close, behind]

@[simp]
theorem next_behind : next (behind before scan) c = behind before (next scan c) := by
  simp only [next, behind_state, keep_behind, skip_behind, close_behind, sign_behind]
  split_ifs <;> rfl

@[simp]
theorem shortText_behind :
    shortText (behind before scan) mark spelling c =
      (shortText scan mark spelling c).map (behind before) := by
  simp only [shortText, close_behind, keep_behind]
  split_ifs <;> rfl

theorem inside_behind :
    inside (behind before scan) spelling c part =
      (inside scan spelling c part).map (behind before) := by
  unfold inside
  split <;>
    simp only [keep_behind, close_behind, next_behind, shortText_behind,
      apply_ite (behind before), apply_ite (Option.map (behind before)), Option.map_some]

/-- What a character does does not depend on the tokens before it. -/
theorem step_behind : step (behind before scan) c = (step scan c).map (behind before) := by
  unfold step
  rw [behind_state]
  split <;>
    simp only [skip_behind, next_behind, inside_behind, apply_ite (behind before),
      apply_ite (Option.map (behind before)), Option.map_some, Option.map_none]

/-- What a text does does not depend on the tokens before it. -/
theorem read_behind (text : List Char) :
    text.foldlM step (behind before scan) = (text.foldlM step scan).map (behind before) :=
  foldlM_map_comm (step_behind before) text scan

end Behind

namespace Layout

section Behind

variable (before : List Lexeme) (layout : Layout) (token : Token)

/-- A layout behind other lexemes. -/
def behind : Layout :=
  { layout with lexemes := before ++ layout.lexemes }

@[simp]
theorem behind_lexemes : (layout.behind before).lexemes = before ++ layout.lexemes :=
  rfl

@[simp]
theorem behind_blocks : (layout.behind before).blocks = layout.blocks :=
  rfl

@[simp]
theorem behind_brackets : (layout.behind before).brackets = layout.brackets :=
  rfl

@[simp]
theorem behind_line : (layout.behind before).line = layout.line :=
  rfl

theorem openLine_behind (target : Column) :
    openLine (layout.behind before) target = (openLine layout target).map (behind before) := by
  cases layout with
  | mk lexemes blocks brackets line =>
      unfold openLine behind
      dsimp only
      split_ifs <;> simp

theorem closeLine_behind :
    closeLine isIdentifier (layout.behind before) =
      (closeLine isIdentifier layout).map (behind before) := by
  cases layout with
  | mk lexemes blocks brackets line =>
      unfold closeLine behind
      dsimp only
      split_ifs
      · rfl
      · cases lineWords isIdentifier [] line with
        | none => rfl
        | some words => simp

theorem add_behind :
    add (layout.behind before) token = (add layout token).map (behind before) := by
  simp only [add, behind_brackets, behind_line]
  cases nest layout.brackets token <;> rfl

/-- What a token does does not depend on the lexemes before it. -/
theorem place_behind :
    place isIdentifier (layout.behind before) token =
      (place isIdentifier layout token).map (behind before) := by
  simp only [place, behind_line, closeLine_behind, openLine_behind, add_behind]
  split_ifs
  · rfl
  · cases openLine layout (indentation token.gap) with
    | none => rfl
    | some opened => exact add_behind before opened token
  · rfl

end Behind

theorem place_more {fewer : List Char → Bool}
    (more : ∀ name, fewer name = true → isIdentifier name = true) {layout after : Layout}
    {token : Token} (placed : place fewer layout token = some after) :
    place isIdentifier layout token = some after := by
  unfold place at placed ⊢
  split
  case isTrue lineEnd =>
    rw [if_pos lineEnd] at placed
    unfold closeLine at placed ⊢
    split
    case isTrue closed => rwa [if_pos closed] at placed
    case isFalse opened =>
      rw [if_neg opened, Option.map_eq_some_iff] at placed
      obtain ⟨found, cut, rfl⟩ := placed
      rw [lineWords_more more cut, Option.map_some]
  case isFalse within => rwa [if_neg within] at placed

/-- A line at the margin leaves all blocks. -/
theorem openLine_margin (layout : Layout) :
    openLine layout margin = some { layout with
      lexemes := layout.lexemes ++ List.replicate layout.blocks.length .dedent
      blocks := [] } := by
  have left : layout.blocks.dropWhile (fun block => decide (margin.wide < block.wide)) = [] :=
    List.dropWhile_eq_nil_iff.2 fun block _ => decide_eq_true block.positive
  have shallow : ¬ (column layout.blocks).wide < margin.wide := Nat.not_lt_zero _
  rw [openLine, dif_neg shallow]
  simp [left, column]

end Layout

/-! ## Texts one after the other -/

/-- A text of these tokens, which ends between two lines. -/
def Cuts (text : List Char) (tokens : List Token) : Prop :=
  text.foldlM step (start []) = some ⟨tokens, [], ⟨0, .between⟩⟩

instance {text : List Char} {tokens : List Token} : Decidable (Cuts text tokens) :=
  inferInstanceAs (Decidable (text.foldlM step (start []) = some ⟨tokens, [], ⟨0, .between⟩⟩))

theorem Cuts.append {first second : List Char} {tokens others : List Token}
    (cuts : Cuts first tokens) (rest : Cuts second others) :
    Cuts (first ++ second) (tokens ++ others) := by
  have between : (⟨tokens, [], ⟨0, .between⟩⟩ : Scan) = behind tokens (start []) := by
    simp [behind, start]
  unfold Cuts at cuts rest ⊢
  rw [List.foldlM_append, cuts, Option.bind_eq_bind, Option.bind_some, between, read_behind, rest]
  rfl

variable (isIdentifier) in
/-- A text takes a layout to another. -/
def Lays (text : List Char) (layout after : Layout) : Prop :=
  layOut isIdentifier text layout = some after

/-- A text whose first line is not indented. -/
def beginsAtMargin (text : List Char) : Bool :=
  ((text.foldlM step (start [])).bind fun scan => scan.tokens.head?).any fun token =>
    token.kind != .lineEnd && token.gap.isEmpty

theorem lays_iff {text : List Char} {layout after : Layout} :
    Lays isIdentifier text layout after ↔
      ∃ tokens, Cuts text tokens ∧
        tokens.foldlM (Layout.place isIdentifier) layout = some after := by
  simp only [Lays, layOut, Option.bind_eq_bind, Option.bind_eq_some_iff]
  constructor
  · rintro ⟨⟨tokens, gap, state⟩, read, laid⟩
    split at laid
    case isTrue between =>
      obtain ⟨rfl, rfl⟩ := between
      exact ⟨tokens, read, laid⟩
    case isFalse => cases laid
  · rintro ⟨tokens, cuts, laid⟩
    exact ⟨_, cuts, by rwa [if_pos ⟨rfl, rfl⟩]⟩

namespace Lays

variable {text first second : List Char} {layout middle after : Layout}

theorem append (lays : Lays isIdentifier first layout middle)
    (rest : Lays isIdentifier second middle after) :
    Lays isIdentifier (first ++ second) layout after := by
  obtain ⟨tokens, cuts, laid⟩ := lays_iff.mp lays
  obtain ⟨others, restCuts, restLaid⟩ := lays_iff.mp rest
  refine lays_iff.mpr ⟨tokens ++ others, cuts.append restCuts, ?_⟩
  rw [List.foldlM_append, laid]
  exact restLaid

/-- The lexemes before a text do not matter to it. -/
theorem behind (lays : Lays isIdentifier text layout after) (before : List Lexeme) :
    Lays isIdentifier text (layout.behind before) (after.behind before) := by
  obtain ⟨tokens, cuts, laid⟩ := lays_iff.mp lays
  refine lays_iff.mpr ⟨tokens, cuts, ?_⟩
  rw [foldlM_map_comm (Layout.place_behind before), laid]
  rfl

/-- A text behind one that ends all its blocks. -/
theorem next (lays : Lays isIdentifier text Layout.empty after) (before : List Lexeme) :
    Lays isIdentifier text ⟨before, [], [], []⟩ (after.behind before) := by
  simpa [Layout.empty, Layout.behind] using lays.behind before

/-- A line end between two lines does nothing. -/
theorem lineEnd (between : layout.line = []) : Lays isIdentifier ['\n'] layout layout := by
  refine lays_iff.mpr ⟨[⟨.lineEnd, [], ['\n']⟩], by decide, ?_⟩
  simp [Layout.place, Layout.closeLine, between]

/-- With more names, a text is laid out as before. -/
theorem more {fewer : List Char → Bool} (lays : Lays fewer text layout after)
    (more : ∀ name, fewer name = true → isIdentifier name = true) :
    Lays isIdentifier text layout after := by
  obtain ⟨tokens, cuts, laid⟩ := lays_iff.mp lays
  refine lays_iff.mpr ⟨tokens, cuts, ?_⟩
  clear lays cuts
  induction tokens generalizing layout with
  | nil => exact laid
  | cons token tokens ih =>
      simp only [List.foldlM_cons, Option.bind_eq_bind, Option.bind_eq_some_iff] at laid ⊢
      obtain ⟨middle, placed, rest⟩ := laid
      exact ⟨middle, Layout.place_more more placed, ih rest⟩

/-- A text that begins at the margin leaves the blocks before it. -/
theorem atMargin (unblocked : beginsAtMargin text = true)
    (lays : Lays isIdentifier text Layout.empty after) (lexemes : List Lexeme)
    (blocks : List Block) :
    Lays isIdentifier text ⟨lexemes, blocks, [], []⟩
      (after.behind (lexemes ++ List.replicate blocks.length .dedent)) := by
  obtain ⟨tokens, cuts, laid⟩ :=
    lays_iff.mp (lays.behind (lexemes ++ List.replicate blocks.length .dedent))
  refine lays_iff.mpr ⟨tokens, cuts, ?_⟩
  rw [beginsAtMargin, cuts, Option.bind_some] at unblocked
  cases tokens with
  | nil => cases unblocked
  | cons token tokens =>
      simp only [List.head?_cons, Option.any_some, Bool.and_eq_true, bne_iff_ne,
        List.isEmpty_iff] at unblocked
      obtain ⟨begins, unindented⟩ := unblocked
      have opens : Layout.place isIdentifier ⟨lexemes, blocks, [], []⟩ token =
          Layout.place isIdentifier
            (Layout.empty.behind (lexemes ++ List.replicate blocks.length .dedent)) token := by
        have first : indentation token.gap = margin := by simp [unindented, indentation]
        simp [Layout.place, begins, first, Layout.openLine_margin, Layout.empty, Layout.behind]
      rw [List.foldlM_cons] at laid ⊢
      rw [opens]
      exact laid

end Lays

theorem finish_eq_some_iff {layout : Layout} {lexemes : List Lexeme} :
    layout.finish = some lexemes ↔
      ∃ before blocks, layout = ⟨before, blocks, [], []⟩ ∧
        lexemes = before ++ List.replicate blocks.length .dedent := by
  cases layout with
  | mk before blocks brackets line =>
      simp only [Layout.finish, Option.ite_none_right_eq_some, Option.some.injEq,
        Layout.mk.injEq]
      constructor
      · rintro ⟨⟨rfl, rfl⟩, rfl⟩
        exact ⟨before, blocks, ⟨rfl, rfl, rfl, rfl⟩, rfl⟩
      · rintro ⟨_, _, ⟨rfl, rfl, rfl, rfl⟩, rfl⟩
        exact ⟨⟨rfl, rfl⟩, rfl⟩

/-- The lexemes of a text are those that it lays out, and the ends of its blocks. -/
theorem lex_eq_some_iff {text : List Char} {lexemes : List Lexeme} :
    lex isIdentifier text = some lexemes ↔
      '\x00' ∉ text ∧ ∃ before blocks,
        Lays isIdentifier (ended text) Layout.empty ⟨before, blocks, [], []⟩ ∧
          lexemes = before ++ List.replicate blocks.length .dedent := by
  unfold lex
  split
  case isTrue null => simp [null]
  case isFalse clean =>
    simp only [clean, not_false_eq_true, true_and, Option.bind_eq_some_iff, finish_eq_some_iff]
    constructor
    · rintro ⟨layout, laid, before, blocks, rfl, same⟩
      exact ⟨before, blocks, laid, same⟩
    · rintro ⟨before, blocks, laid, same⟩
      exact ⟨_, laid, before, blocks, rfl, same⟩

theorem lex_of_lays {text : List Char} {lexemes : List Lexeme} {blocks : List Block}
    (clean : '\x00' ∉ text) (ends : ended text = text)
    (lays : Lays isIdentifier text Layout.empty ⟨lexemes, blocks, [], []⟩) :
    lex isIdentifier text = some (lexemes ++ List.replicate blocks.length .dedent) :=
  lex_eq_some_iff.mpr ⟨clean, lexemes, blocks, by rwa [ends], rfl⟩

theorem ended_of_lineEnd {text rest : List Char} (ends : rest.getLast?.any isLineEnd = true) :
    ended (text ++ rest) = text ++ rest := by
  have last : (text ++ rest).getLast?.any isLineEnd = true := by
    cases final : rest.getLast? with
    | none => simp [final] at ends
    | some c =>
        rw [List.getLast?_append, final]
        simpa [final] using ends
  rw [ended, if_pos (.inr last)]

/-- Empty lines behind a text do nothing. -/
theorem Lays.emptyLines {text : List Char} {layout after : Layout}
    (lays : Lays isIdentifier (ended text) layout after) (between : after.line = []) :
    Lays isIdentifier (text ++ ['\n', '\n']) layout after := by
  have one : Lays isIdentifier ['\n'] after after := .lineEnd between
  unfold ended at lays
  split at lays
  · exact lays.append (one.append one)
  · simpa using lays.append one

/-! ## A text that begins with a string -/

/-- A string at the beginning of a text. -/
theorem place_string (text : List Char) :
    Layout.place isIdentifier Layout.empty ⟨.literal, [], text⟩ =
      some ⟨[], [], [], [⟨.literal, true, text⟩]⟩ := by
  have opens : Layout.openLine Layout.empty (indentation []) = some Layout.empty :=
    Layout.openLine_margin Layout.empty
  have added : Layout.add Layout.empty ⟨.literal, [], text⟩ =
      some ⟨[], [], [], [⟨.literal, true, text⟩]⟩ :=
    rfl
  simp only [Layout.place, reduceCtorEq, if_false, Layout.empty, if_true] at opens added ⊢
  rw [opens, Option.bind_some, added]

/-- A line that is no more than a string. -/
theorem Lays.string {text : List Char} (cuts : Cuts (text ++ ['\n'])
      [⟨.literal, [], text⟩, ⟨.lineEnd, [], ['\n']⟩]) :
    Lays isIdentifier (text ++ ['\n']) Layout.empty
      ⟨[.word ⟨.string, text⟩, .newline], [], [], []⟩ := by
  refine lays_iff.mpr ⟨_, cuts, ?_⟩
  have string : lineWords isIdentifier [] [⟨.literal, true, text⟩] = some [⟨.string, text⟩] := by
    rw [lineWords_literal]
    rfl
  rw [List.foldlM_cons, place_string]
  simp [Layout.place, Layout.closeLine, string]

/-- A string that is not closed yet closes further behind, if at all. -/
theorem read_long {text : List Char} {mark : Char} {run : Nat} {escaped : Bool}
    {spelling : List Char} {done : Scan}
    (read : text.foldlM step ⟨[], [], ⟨0, .within (.long mark run escaped) spelling⟩⟩ = some done)
    (between : done.state = ⟨0, .between⟩) :
    ∃ whole others, done.tokens = ⟨.literal, [], whole⟩ :: others ∧ spelling <+: whole := by
  induction text generalizing run escaped spelling with
  | nil =>
      cases read
      cases between
  | cons c text ih =>
      rw [List.foldlM_cons, Option.bind_eq_bind, Option.bind_eq_some_iff] at read
      obtain ⟨scan, stepped, rest⟩ := read
      have longer : scan = behind [⟨.literal, [], spelling ++ [c]⟩] (start []) ∨
          ∃ run escaped,
            scan = ⟨[], [], ⟨0, .within (.long mark run escaped) (spelling ++ [c])⟩⟩ := by
        cases escaped with
        | true =>
            cases stepped
            exact .inr ⟨_, _, rfl⟩
        | false =>
            simp only [step, inside] at stepped
            cases stepped
            split_ifs
            · exact .inl rfl
            · exact .inr ⟨_, _, rfl⟩
            · exact .inr ⟨_, _, rfl⟩
      rcases longer with rfl | ⟨run, escaped, rfl⟩
      · rw [read_behind, Option.map_eq_some_iff] at rest
        obtain ⟨read, -, rfl⟩ := rest
        exact ⟨_, read.tokens, rfl, List.prefix_append _ _⟩
      · obtain ⟨whole, others, tokens, longer⟩ := ih rest
        exact ⟨whole, others, tokens, (List.prefix_append _ _).trans longer⟩

/-- A line that begins with a string gives this string first. -/
theorem lexemes_of_line {tokens : List Token} {blocks : List Block} {brackets whole : List Char}
    {touching : Bool} {line : List Piece} {after : Layout}
    (laid : tokens.foldlM (Layout.place isIdentifier)
      ⟨[], blocks, brackets, ⟨.literal, touching, whole⟩ :: line⟩ = some after)
    (closed : after.line = []) :
    ∃ others, after.lexemes = .word ⟨.string, whole⟩ :: others := by
  induction tokens generalizing brackets line with
  | nil =>
      cases laid
      cases closed
  | cons token tokens ih =>
      rw [List.foldlM_cons, Option.bind_eq_bind, Option.bind_eq_some_iff] at laid
      obtain ⟨layout, placed, rest⟩ := laid
      by_cases lineEnd : token.kind = .lineEnd
      · simp only [Layout.place, lineEnd, if_true, Layout.closeLine, reduceCtorEq, if_false,
          lineWords_literal, Option.map_map, Option.map_eq_some_iff] at placed
        obtain ⟨words, -, rfl⟩ := placed
        have first : (⟨.word ⟨.string, whole⟩ :: (words.map .word ++ [.newline]), blocks, brackets,
            []⟩ : Layout) =
            (⟨words.map .word ++ [.newline], blocks, brackets, []⟩ : Layout).behind
              [.word ⟨.string, whole⟩] :=
          rfl
        change tokens.foldlM _ (⟨.word ⟨.string, whole⟩ :: (words.map .word ++ [.newline]), blocks,
          brackets, []⟩ : Layout) = _ at rest
        rw [first, foldlM_map_comm (Layout.place_behind _), Option.map_eq_some_iff] at rest
        obtain ⟨laid, -, rfl⟩ := rest
        exact ⟨laid.lexemes, rfl⟩
      · simp only [Layout.place, lineEnd, if_false, reduceCtorEq, Layout.add,
          Option.map_eq_some_iff] at placed
        obtain ⟨nested, -, rfl⟩ := placed
        exact ih rest

/-- A text that begins with an open string has that string first, closed further behind. -/
theorem head_of_open {text rest : List Char} {mark : Char} {run : Nat} {escaped : Bool}
    {spelling : List Char} {lexemes : List Lexeme}
    (opened : text.foldlM step (start []) =
      some ⟨[], [], ⟨0, .within (.long mark run escaped) spelling⟩⟩)
    (lexed : lex isIdentifier (text ++ rest) = some lexemes) :
    ∃ whole others, lexemes = .word ⟨.string, whole⟩ :: others ∧ spelling <+: whole := by
  obtain ⟨-, before, blocks, lays, rfl⟩ := lex_eq_some_iff.mp lexed
  obtain ⟨tokens, cuts, laid⟩ := lays_iff.mp lays
  obtain ⟨ends, endedText⟩ := ended_eq (text ++ rest)
  rw [Cuts, endedText, List.append_assoc, List.foldlM_append, opened, Option.bind_eq_bind,
    Option.bind_some] at cuts
  obtain ⟨whole, others, rfl, longer⟩ := read_long cuts rfl
  rw [List.foldlM_cons, place_string] at laid
  obtain ⟨more, rfl⟩ := lexemes_of_line laid rfl
  exact ⟨whole, _, rfl, longer⟩

end ClotoCore.Python
