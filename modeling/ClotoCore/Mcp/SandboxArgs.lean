import ClotoCore.Encoding.Words
import ClotoCore.Mcp.ToolCall
import ClotoCore.Shell.Tokens

/-!
# Commands for a shell

The command of a shell tool is searched for signs and patterns before the call is
forwarded, after its characters are normalised and put in lower case.  What is not found
there is in none of the shell's tokens either.
-/

namespace ClotoCore.Mcp.SandboxArgs

open ClotoCore.Access ClotoCore.Encoding ClotoCore.Json ClotoCore.Shell
open ClotoCore.Scanning (sourceOf)

/-! ## Normalised characters -/

/-- The ASCII characters that no mark behind them changes. -/
def isSign (c : Char) : Bool :=
  c.toNat < 128 && !c.isAlpha && ! ['<', '=', '>'].contains c

/-- What normalisation and lower case do with ASCII characters: one that no mark follows is
left as it is, and what is around it is normalised for itself; lower case goes character by
character. -/
structure KeepsAscii (texts : Texts) (other : List Char → Char → List Char → List Char) :
    Prop where
  nfkc : ∀ front c behind, c.toNat < 128 →
    (isSign c = true ∨ ∀ d, behind.head? = some d → d.toNat < 128) →
      (texts.nfkc (String.ofList (front ++ c :: behind))).toList
        = (texts.nfkc (String.ofList front)).toList
          ++ c :: (texts.nfkc (String.ofList behind)).toList
  empty : texts.nfkc "" = ""
  lower : ∀ text, (texts.toLowercase text).toList = lowercase other [] text.toList

/-- What is searched. -/
def searched (texts : Texts) (command : List Char) : String :=
  texts.toLowercase (texts.nfkc (String.ofList command))

/-- No mark stands behind a part. -/
def Unmarked (part behind : List Char) : Prop :=
  ∀ c, part.getLast? = some c → isSign c = true ∨ ∀ d, behind.head? = some d → d.toNat < 128

variable {texts : Texts} {other : List Char → Char → List Char → List Char}
  {front part behind command : List Char}

theorem nfkc_nil (keeps : KeepsAscii texts other) :
    (texts.nfkc (String.ofList [])).toList = [] := by
  have empty : texts.nfkc (String.ofList []) = "" := keeps.empty
  rw [empty]
  rfl

theorem nfkc_append (front : List Char) (keeps : KeepsAscii texts other)
    (ascii : ∀ c ∈ part, c.toNat < 128)
    (unmarked : Unmarked part behind) (filled : part ≠ []) :
    (texts.nfkc (String.ofList (front ++ (part ++ behind)))).toList
      = (texts.nfkc (String.ofList front)).toList
        ++ (part ++ (texts.nfkc (String.ofList behind)).toList) := by
  induction part generalizing front with
  | nil => exact absurd rfl filled
  | cons c part ih =>
      cases part with
      | nil => exact keeps.nfkc front c behind (ascii c List.mem_cons_self) (unmarked c rfl)
      | cons d part =>
          have rest : (texts.nfkc (String.ofList ([] ++ ((d :: part) ++ behind)))).toList
              = (texts.nfkc (String.ofList [])).toList
                ++ ((d :: part) ++ (texts.nfkc (String.ofList behind)).toList) := by
            apply ih
            · exact fun e mem => ascii e (List.mem_cons_of_mem _ mem)
            · exact fun e last => unmarked e (by simpa using last)
            · simp
          rw [List.nil_append, nfkc_nil keeps, List.nil_append] at rest
          rw [List.cons_append, keeps.nfkc front c _ (ascii c List.mem_cons_self), rest]
          · rfl
          · right
            intro e first
            cases first
            exact ascii d (by simp)

/-- Where a part is found in what is searched. -/
theorem exists_searched (front : List Char) (keeps : KeepsAscii texts other)
    (ascii : ∀ c ∈ part, c.toNat < 128)
    (unmarked : Unmarked part behind) (filled : part ≠ []) :
    ∃ left right, (searched texts (front ++ (part ++ behind))).toList
        = left ++ (part.map lowerChar ++ right) ∧ (front = [] → left = []) := by
  have normal := nfkc_append front keeps ascii unmarked filled
  rw [searched, keeps.lower, normal]
  by_cases begins : front = []
  · refine ⟨[], lowercase other part (texts.nfkc (String.ofList behind)).toList, ?_, fun _ => rfl⟩
    rw [begins, nfkc_nil keeps, List.nil_append, lowercase_append_of_ascii ascii]
    rfl
  · have cut : ∃ lowered, lowercase other [] ((texts.nfkc (String.ofList front)).toList ++
        (part ++ (texts.nfkc (String.ofList behind)).toList)) = lowered ++
          lowercase other ([] ++ (texts.nfkc (String.ofList front)).toList)
            (part ++ (texts.nfkc (String.ofList behind)).toList) :=
      exists_lowercase_append _ _ _
    obtain ⟨left, cut⟩ := cut
    rw [lowercase_append_of_ascii ascii] at cut
    exact ⟨left, _, cut, fun same => absurd same begins⟩

/-! ## What is refused -/

theorem containsText_iff {text pattern : String} :
    containsText text pattern = true ↔ pattern.toList <:+: text.toList := by
  simp only [containsText, List.any_eq_true, List.mem_tails, List.isPrefixOf_iff_prefix]
  constructor
  · rintro ⟨rest, ends, starts⟩
    exact starts.isInfix.trans ends.isInfix
  · rintro ⟨front, behind, same⟩
    exact ⟨pattern.toList ++ behind, ⟨front, by rw [← same, List.append_assoc]⟩,
      List.prefix_append _ _⟩

/-- What is known of a command that is accepted. -/
structure Accepted (lower : String) : Prop where
  oneLine : ∀ c ∈ ['\n', '\r', '\u2028', '\u2029'], c ∉ lower.toList
  noMetachar : ∀ found ∈ sandboxBlockedMetachar, ¬found.toList <:+: lower.toList
  noPattern : ∀ pattern ∈ sandboxBlockedPatterns, ¬pattern.toList <:+: lower.toList
  noRm : ((splitWhitespace lower).head?.any isRm &&
    (splitWhitespace lower).any (hasFlag ['r', 'R']) &&
      (splitWhitespace lower).any (hasFlag ['f'])) = false

variable {args : Value} {text : String}

theorem accepted_of_ok (ok : validateSandboxArgs texts args = .ok ())
    (isCommand : args.getStr "command" = some text) :
    Accepted (searched texts text.toList) := by
  have same : searched texts text.toList = texts.toLowercase (texts.nfkc text) := by
    rw [searched, String.ofList_toList]
  rw [same]
  unfold validateSandboxArgs at ok
  simp only [isCommand] at ok
  split at ok
  · cases ok
  split at ok
  · cases ok
  · next oneLine =>
    split at ok
    · cases ok
    · next noMetachar =>
      split at ok
      · cases ok
      · next noPattern =>
        split at ok
        · cases ok
        · next noRm =>
          rw [List.find?_eq_none] at noMetachar noPattern
          refine ⟨?_, ?_, ?_, ?_⟩
          · intro c mem inside
            apply oneLine
            rw [List.any_eq_true]
            exact ⟨c, mem, List.contains_iff_mem.mpr inside⟩
          · intro found mem inside
            exact noMetachar found mem (containsText_iff.mpr inside)
          · intro pattern mem inside
            exact noPattern pattern mem (containsText_iff.mpr inside)
          · exact Bool.eq_false_iff.mpr noRm

/-- No blocked pattern is in a part that no mark follows. -/
theorem no_pattern (keeps : KeepsAscii texts other)
    (accepted : Accepted (searched texts (front ++ (part ++ behind))))
    (ascii : ∀ c ∈ part, c.toNat < 128) (unmarked : Unmarked part behind) {pattern : String}
    (blocked : pattern ∈ sandboxBlockedPatterns) : ¬pattern.toList <:+: part.map lowerChar := by
  intro inside
  have filled : part ≠ [] := by
    rintro rfl
    have nonempty : ∀ pattern ∈ sandboxBlockedPatterns, ¬pattern.toList <:+: [] := by
      decide +kernel
    exact nonempty pattern blocked inside
  obtain ⟨left, right, found, -⟩ := exists_searched front keeps ascii unmarked filled
  refine accepted.noPattern pattern blocked (inside.trans ?_)
  rw [found]
  exact ⟨left, right, by simp⟩

/-- No blocked sign is in an accepted command. -/
theorem no_metachar (keeps : KeepsAscii texts other) (accepted : Accepted (searched texts command))
    {found : String} (blocked : found ∈ sandboxBlockedMetachar) : ¬found.toList <:+: command := by
  rintro ⟨front, behind, rfl⟩
  have signs : ∀ found ∈ sandboxBlockedMetachar, found.toList ≠ [] ∧
      (found.toList.all fun c => decide (c.toNat < 128 ∧ isSign c = true ∧ lowerChar c = c))
        = true := by
    decide +kernel
  obtain ⟨filled, checked⟩ := signs found blocked
  have each := forall_mem_of_all checked
  rw [List.append_assoc] at accepted
  have unmarked : Unmarked found.toList behind := fun c last =>
    Or.inl (each c (List.mem_of_getLast? last)).2.1
  obtain ⟨left, right, same, -⟩ := exists_searched front keeps
    (fun c mem => (each c mem).1) unmarked filled
  refine accepted.noMetachar found blocked ?_
  rw [same, List.map_congr_left fun c mem => (each c mem).2.2, List.map_id']
  exact ⟨left, right, by simp⟩

/-- An accepted command is one line. -/
theorem no_line_end (keeps : KeepsAscii texts other)
    (accepted : Accepted (searched texts command)) : '\n' ∉ command := by
  intro inside
  obtain ⟨front, behind, rfl⟩ := List.append_of_mem inside
  have unmarked : Unmarked ['\n'] behind := fun c last =>
    Or.inl (by rw [← Option.some.inj last]; decide)
  obtain ⟨left, right, same, -⟩ :=
    exists_searched front keeps (forall_mem_of_all (by decide)) unmarked (by simp)
  refine accepted.oneLine '\n' List.mem_cons_self ?_
  rw [← List.singleton_append, same]
  simp [lowerChar]

/-! ## Words between blanks -/

/-- A word that is spelled in ASCII without blanks. -/
def Plain (spelling : List Char) : Prop :=
  ∀ c ∈ spelling, c.toNat < 128 ∧ isWhitespace c = false

theorem isWhitespace_lowerChar {c : Char} (black : isWhitespace c = false) :
    isWhitespace (lowerChar c) = false := by
  unfold lowerChar
  split
  · next upper =>
    have bound : c.toNat ≤ 90 := upper.2
    have small : ∀ n ≤ 90, 'A' ≤ Char.ofNat n ∧ Char.ofNat n ≤ 'Z' →
        isWhitespace (Char.ofNat ((Char.ofNat n).toNat + 32)) = false := by
      decide +kernel
    have here := small c.toNat bound
    rw [Char.ofNat_toNat] at here
    exact here upper
  · exact black

theorem Plain.lower {spelling : List Char} (plain : Plain spelling) :
    ∀ c ∈ spelling.map lowerChar, isWhitespace c = false := by
  intro c mem
  obtain ⟨d, inside, rfl⟩ := List.mem_map.mp mem
  exact isWhitespace_lowerChar (plain d inside).2

/-- A word in front of a text goes on to the next blank. -/
theorem exists_splitOnP_append {word right : List Char}
    (black : ∀ c ∈ word, isWhitespace c = false) :
    ∃ more pieces, (word ++ right).splitOnP isWhitespace = (word ++ more) :: pieces := by
  induction word with
  | nil =>
      obtain ⟨head, pieces, split⟩ :=
        List.exists_cons_of_ne_nil (List.splitOnP_ne_nil isWhitespace right)
      exact ⟨head, pieces, split⟩
  | cons c word ih =>
      obtain ⟨more, pieces, split⟩ := ih fun d mem => black d (List.mem_cons_of_mem _ mem)
      refine ⟨more, pieces, ?_⟩
      rw [List.cons_append, List.splitOnP_cons_eq_if_modifyHead,
        if_neg (by simp [black c List.mem_cons_self]), split]
      rfl

/-- The first word of a text. -/
theorem head?_splitWhitespace {blanks word right : List Char} {blank : Char}
    (blankBefore : ∀ c ∈ blanks, isWhitespace c = true)
    (black : ∀ c ∈ word, isWhitespace c = false) (filled : word ≠ [])
    (blankBehind : isWhitespace blank = true)
    (whole : text.toList = blanks ++ (word ++ blank :: right)) :
    (splitWhitespace text).head? = some word := by
  rw [splitWhitespace, whole]
  clear whole
  induction blanks with
  | nil =>
      rw [List.nil_append, List.splitOnP_append_cons _ _ blankBehind,
        List.splitOnP_eq_singleton black]
      simp [filled]
  | cons c blanks ih =>
      rw [List.cons_append, List.splitOnP_cons_eq_if_modifyHead,
        if_pos (blankBefore c List.mem_cons_self)]
      exact ih fun d mem => blankBefore d (List.mem_cons_of_mem _ mem)

/-- A word of a text behind a blank, which may go on. -/
theorem exists_mem_splitWhitespace {left word right : List Char} {blank : Char}
    (blankBefore : isWhitespace blank = true) (black : ∀ c ∈ word, isWhitespace c = false)
    (filled : word ≠ []) (whole : text.toList = left ++ (blank :: word ++ right)) :
    ∃ more, word ++ more ∈ splitWhitespace text := by
  obtain ⟨more, pieces, split⟩ : ∃ more pieces,
      (word ++ right).splitOnP isWhitespace = (word ++ more) :: pieces :=
    exists_splitOnP_append black
  refine ⟨more, List.mem_filter.mpr ⟨?_, by simp [filled]⟩⟩
  rw [whole, List.cons_append, List.splitOnP_append_cons _ _ blankBefore, split]
  exact List.mem_append_right _ List.mem_cons_self

/-- A word of short flags keeps them when it goes on. -/
theorem hasFlag_append {letters word : List Char} (noDash : '-' ∉ letters)
    (flag : hasFlag letters word = true) (more : List Char) :
    hasFlag letters (word ++ more) = true := by
  have dash : "-".toList = ['-'] := rfl
  have dashes : "--".toList = ['-', '-'] := rfl
  simp only [hasFlag, dash, dashes, Bool.and_eq_true, Bool.not_eq_true', List.any_eq_true,
    List.contains_iff_mem, List.isPrefixOf_iff_prefix, ← Bool.not_eq_true] at flag ⊢
  obtain ⟨⟨⟨rest, rfl⟩, short⟩, letter, mem, inside⟩ := flag
  refine ⟨⟨⟨rest ++ more, by simp⟩, ?_⟩, letter, mem, List.mem_append_left _ inside⟩
  cases rest with
  | nil =>
      rw [List.append_nil] at inside
      exact absurd (List.mem_singleton.mp inside ▸ mem) noDash
  | cons c rest =>
      rintro ⟨tail, same⟩
      apply short
      simp only [List.cons_append, List.nil_append, List.cons.injEq] at same
      exact ⟨rest, by simp [← same.2.1]⟩

/-! ## What is accepted -/

/-- The operators that no accepted command holds: those that separate or pipe commands, and
the redirection that overwrites. -/
def separators : List (List Char) :=
  [['\n'], [';'], [';', ';'], ['|'], ['|', '|'], ['&', '&'], ['>', '|']]

/-- What no accepted command spells, in lower case. -/
def denied : List String :=
  [":()\x7b :|:& \x7d;:", "/bin/rm -rf", "/usr/bin/rm -rf", "> /dev/sda", "chmod -r 777 /",
    "chown -r", "dd if=/dev", "doas ", "init 0", "init 6", "mkfs", "reboot", "rm -fr /",
    "rm -rf /", "shutdown", "su ", "su\t", "sudo "]

/-- What a shell makes of a command that is accepted. -/
structure Vetted (command : List Char) (tokens : List Shell.Token) : Prop where
  operators : ∀ token ∈ tokens, token.kind = .operator → token.spelling ∉ separators
  substitutions : ∀ token ∈ tokens, token.kind ≠ .word true
  /-- Without `&` and parentheses there is one command. -/
  simple : (∀ token ∈ tokens, token.kind = .operator →
      token.spelling ∉ [['&'], ['('], [')']]) → ¬Dangles tokens →
    (∀ words, simpleWords tokens = some words →
      ∀ first ∈ words.head?, first.spelling ∉ reservedWords) → IsSimpleCommand tokens
  /-- Nothing that is denied is written in it, in whatever letter case. -/
  patterns : ∀ front part behind, command = front ++ (part ++ behind) →
    (∀ c ∈ part, c.toNat < 128) → Unmarked part behind →
      ∀ pattern ∈ denied, ¬pattern.toList <:+: part.map lowerChar
  programs : ∀ token ∈ tokens, token.kind = .word false →
    (∀ c ∈ token.spelling, c.toNat < 128) → ∀ program ∈ ["mkfs", "shutdown", "reboot"],
      ¬program.toList <:+: token.spelling.map lowerChar
  privileged : ∀ before token after behind, tokens = before ++ token :: after →
    token.kind = .word false → (∀ c ∈ token.spelling, c.toNat < 128) →
    command = sourceOf (before ++ [token]) ++ behind →
    (∃ program ∈ ["sudo", "su", "doas"], program.toList <:+ token.spelling.map lowerChar) →
      behind.head? ≠ some ' '
  /-- A command `rm` does not have both short flags. -/
  removal : ∀ first rest blank behind, tokens = first :: rest → first.kind = .word false →
    Plain first.spelling → isRm (first.spelling.map lowerChar) = true → isBlank blank = true →
    command = first.source ++ blank :: behind →
    ∀ recursive ∈ rest, ∀ force ∈ rest,
      recursive.kind = .word false → recursive.gap ≠ [] → Plain recursive.spelling →
      hasFlag ['r', 'R'] (recursive.spelling.map lowerChar) = true →
      force.kind = .word false → force.gap ≠ [] → Plain force.spelling →
      hasFlag ['f'] (force.spelling.map lowerChar) = false

variable {tokens : List Shell.Token}

theorem ascii_of_isDelimiter {c : Char} (delimiter : isDelimiter c = true) : c.toNat < 128 := by
  simp only [isDelimiter, isBlank, isOperatorChar, Bool.or_eq_true, decide_eq_true_eq,
    List.contains_iff_mem] at delimiter
  rcases delimiter with (rfl | rfl) | sign
  · decide
  · decide
  · have small : ∀ d ∈ ['&', '|', ';', '(', ')', '<', '>', '\n'], d.toNat < 128 :=
      forall_mem_of_all (by decide)
    exact small c sign

/-- No mark stands behind a word. -/
theorem unmarked_of_cut (cut : Shell.language.Cut tokens command) {before after : List Shell.Token}
    {token : Shell.Token} (split : tokens = before ++ token :: after) {substitutes : Bool}
    (word : token.kind = .word substitutes)
    (whole : command = sourceOf (before ++ [token]) ++ behind) : Unmarked part behind := by
  intro c last
  right
  intro d first
  obtain ⟨more, rest⟩ : ∃ more, behind = d :: more := by
    cases behind with
    | nil => cases first
    | cons e more =>
        cases first
        exact ⟨more, rfl⟩
  exact ascii_of_isDelimiter
    (cut.ends before token after behind split isDelimiter (by simp [Shell.language, word]) whole d
      more rest)

/-- What is accepted spells no operator that separates commands. -/
theorem not_mem_separators (keeps : KeepsAscii texts other)
    (accepted : Accepted (searched texts command)) {spelling : List Char}
    (inside : spelling <:+: command) : spelling ∉ separators := by
  intro separates
  have blocked : ∀ spelling ∈ separators,
      '\n' ∈ spelling ∨ ∃ found ∈ sandboxBlockedMetachar, found.toList <:+: spelling := by
    decide +kernel
  rcases blocked spelling separates with lineEnd | ⟨found, blocked, part⟩
  · exact no_line_end keeps accepted (inside.subset lineEnd)
  · exact no_metachar keeps accepted blocked (part.trans inside)

theorem not_holdsSubstitution (keeps : KeepsAscii texts other)
    (accepted : Accepted (searched texts command)) : ¬HoldsSubstitution command := by
  rintro (opening | backquote)
  · exact no_metachar keeps accepted (List.mem_cons_self : "$(" ∈ sandboxBlockedMetachar) opening
  · have blocked : "\x60" ∈ sandboxBlockedMetachar := by decide
    obtain ⟨front, behind, rfl⟩ := List.append_of_mem backquote
    exact no_metachar keeps accepted blocked ⟨front, behind, by simp⟩

/-- The blank in front of a word that has one. -/
theorem exists_blank {before after : List Shell.Token} {token : Shell.Token}
    (cut : Shell.language.Cut tokens command) (split : tokens = before ++ token :: after)
    {substitutes : Bool} (word : token.kind = .word substitutes) (apart : token.gap ≠ []) :
    ∃ front blank behind, command = front ++ ((blank :: token.spelling) ++ behind) ∧
      isBlank blank = true ∧ command = sourceOf (before ++ [token]) ++ behind := by
  obtain ⟨rest, whole⟩ := cut.source
  obtain ⟨gap, blank, gapEq⟩ := List.eq_nil_or_concat' token.gap |>.resolve_left apart
  have wellFormed := cut.wellFormed token (split ▸ by simp)
  simp only [Shell.language, word] at wellFormed
  refine ⟨sourceOf before ++ gap, blank, sourceOf after ++ rest, ?_, ?_, ?_⟩
  · rw [whole, split]
    simp [Scanning.Token.source, gapEq]
  · exact wellFormed.1 blank (by simp [gapEq])
  · rw [whole, split]
    simp

theorem isWhitespace_of_isBlank {c : Char} (blank : isBlank c = true) :
    isWhitespace c = true ∧ lowerChar c = c ∧ c.toNat < 128 ∧ isSign c = true := by
  simp only [isBlank, Bool.or_eq_true, decide_eq_true_eq] at blank
  rcases blank with rfl | rfl
  · decide
  · decide

/-- A word of short flags is one of the searched words. -/
theorem any_hasFlag (keeps : KeepsAscii texts other) (cut : Shell.language.Cut tokens command)
    {token : Shell.Token} (mem : token ∈ tokens) (word : token.kind = .word false)
    (apart : token.gap ≠ []) (plain : Plain token.spelling) {letters : List Char}
    (noDash : '-' ∉ letters) (flag : hasFlag letters (token.spelling.map lowerChar) = true) :
    (splitWhitespace (searched texts command)).any (hasFlag letters) = true := by
  obtain ⟨before, after, split⟩ := List.append_of_mem mem
  obtain ⟨front, blank, behind, whole, isBlank, cutHere⟩ := exists_blank cut split word apart
  obtain ⟨white, same, ascii, -⟩ := isWhitespace_of_isBlank isBlank
  have filled : token.spelling ≠ [] := by
    have wellFormed := cut.wellFormed token mem
    simp only [Shell.language, word] at wellFormed
    exact wellFormed.2.1
  have every : ∀ c ∈ blank :: token.spelling, c.toNat < 128 := by
    intro c inside
    rcases List.mem_cons.mp inside with rfl | later
    · exact ascii
    · exact (plain c later).1
  obtain ⟨left, right, found, -⟩ := exists_searched front keeps every
    (unmarked_of_cut cut split word cutHere) (by simp)
  rw [← whole, List.map_cons, same] at found
  obtain ⟨more, isWord⟩ := exists_mem_splitWhitespace white plain.lower (by simpa using filled)
    found
  exact List.any_eq_true.mpr ⟨_, isWord, hasFlag_append noDash flag more⟩

/-- Nothing that is denied is written in an accepted command. -/
theorem no_denied (keeps : KeepsAscii texts other) (accepted : Accepted (searched texts command))
    (whole : command = front ++ (part ++ behind)) (ascii : ∀ c ∈ part, c.toNat < 128)
    (unmarked : Unmarked part behind) {pattern : String} (isDenied : pattern ∈ denied) :
    ¬pattern.toList <:+: part.map lowerChar := by
  have blocked : ∀ pattern ∈ denied, pattern ∈ sandboxBlockedPatterns := by
    decide +kernel
  rw [whole] at accepted
  exact no_pattern keeps accepted ascii unmarked (blocked pattern isDenied)

/-- A command around one of its words. -/
theorem eq_around_word {before : List Shell.Token} {token : Shell.Token}
    (whole : command = sourceOf (before ++ [token]) ++ behind) :
    command = (sourceOf before ++ token.gap) ++ (token.spelling ++ behind) := by
  rw [whole]
  simp [Scanning.Token.source]

/-- The operators that are left redirect, where there is no `&` and no parenthesis. -/
theorem isSimpleCommand_of_alone (cut : Shell.language.Cut tokens command)
    (operators : ∀ token ∈ tokens, token.kind = .operator → token.spelling ∉ separators)
    (alone : ∀ token ∈ tokens, token.kind = .operator → token.spelling ∉ [['&'], ['('], [')']])
    (complete : ¬Dangles tokens)
    (notReserved : ∀ words, simpleWords tokens = some words →
      ∀ first ∈ words.head?, first.spelling ∉ reservedWords) : IsSimpleCommand tokens := by
  have redirects : ∀ spelling ∈ Shell.operators, spelling ∉ separators →
      spelling ∉ [['&'], ['('], [')']] → spelling ∈ redirections := by
    decide +kernel
  have spelled : ∀ token ∈ tokens, token.kind = .operator →
      token.spelling ∈ Shell.operators := by
    intro token mem operator
    have wellFormed := cut.wellFormed token mem
    simp only [Shell.language, operator] at wellFormed
    exact wellFormed
  obtain ⟨words, found⟩ := simpleWords_isSome complete fun token mem operator =>
    redirects _ (spelled token mem operator) (operators token mem operator)
      (alone token mem operator)
  exact ⟨words, found, notReserved words found⟩

/-- A word that ends in the name of a program which raises privileges has no space behind
it. -/
theorem head?_ne_space_of_privileged (keeps : KeepsAscii texts other)
    (accepted : Accepted (searched texts command)) {before : List Shell.Token}
    {token : Shell.Token} (ascii : ∀ c ∈ token.spelling, c.toNat < 128)
    (whole : command = sourceOf (before ++ [token]) ++ behind) {program : String}
    (isProgram : program ∈ ["sudo", "su", "doas"])
    (ends : program.toList <:+ token.spelling.map lowerChar) : behind.head? ≠ some ' ' := by
  intro first
  obtain ⟨more, rfl⟩ : ∃ more, behind = ' ' :: more := by
    cases behind with
    | nil => cases first
    | cons c more =>
        cases first
        exact ⟨more, rfl⟩
  have isDenied : ∀ program ∈ ["sudo", "su", "doas"], ∃ pattern ∈ denied,
      pattern.toList = program.toList ++ [' '] := by
    decide +kernel
  obtain ⟨pattern, isPattern, spelled⟩ := isDenied program isProgram
  have grouped : command = (sourceOf before ++ token.gap) ++
      ((token.spelling ++ [' ']) ++ more) := by
    rw [eq_around_word whole]
    simp
  have every : ∀ c ∈ token.spelling ++ [' '], c.toNat < 128 := by
    intro c inside
    rcases List.mem_append.mp inside with spelling | blank
    · exact ascii c spelling
    · rw [List.mem_singleton.mp blank]
      decide
  refine no_denied keeps accepted grouped every (fun c last => Or.inl ?_) isPattern ?_
  · rw [List.getLast?_concat] at last
    cases last
    decide
  · rw [spelled, List.map_append]
    obtain ⟨front, same⟩ := ends
    exact ⟨front, [], by rw [← same]; simp [lowerChar]⟩

/-- The first word of a command is the first one that is looked at. -/
theorem head?_searched (keeps : KeepsAscii texts other) (cut : Shell.language.Cut tokens command)
    {first : Shell.Token} (mem : first ∈ tokens) (word : first.kind = .word false)
    (plain : Plain first.spelling) {blank : Char} (isBlank : isBlank blank = true)
    (whole : command = first.source ++ blank :: behind) :
    (splitWhitespace (searched texts command)).head? = some (first.spelling.map lowerChar) := by
  have wellFormed := cut.wellFormed first mem
  simp only [Shell.language, word] at wellFormed
  obtain ⟨white, same, ascii, sign⟩ := isWhitespace_of_isBlank isBlank
  have every : ∀ c ∈ first.gap ++ (first.spelling ++ [blank]), c.toNat < 128 := by
    intro c inside
    rcases List.mem_append.mp inside with gap | inside
    · exact (isWhitespace_of_isBlank (wellFormed.1 c gap)).2.2.1
    · rcases List.mem_append.mp inside with spelling | last
      · exact (plain c spelling).1
      · rw [List.mem_singleton.mp last]
        exact ascii
  have unmarked : Unmarked (first.gap ++ (first.spelling ++ [blank])) behind := by
    intro c last
    rw [← List.append_assoc, List.getLast?_concat] at last
    cases last
    exact Or.inl sign
  have grouped : command = [] ++ ((first.gap ++ (first.spelling ++ [blank])) ++ behind) := by
    rw [whole]
    simp [Scanning.Token.source]
  obtain ⟨left, right, found, begins⟩ := exists_searched [] keeps every unmarked (by simp)
  rw [← grouped, begins rfl] at found
  have blanks : ∀ c ∈ first.gap.map lowerChar, isWhitespace c = true := by
    intro c inside
    obtain ⟨d, gap, rfl⟩ := List.mem_map.mp inside
    obtain ⟨whiteGap, sameGap, -⟩ := isWhitespace_of_isBlank (wellFormed.1 d gap)
    rw [sameGap]
    exact whiteGap
  have split : (searched texts command).toList = first.gap.map lowerChar ++
      (first.spelling.map lowerChar ++ blank :: right) := by
    rw [found]
    simp [same]
  exact head?_splitWhitespace blanks plain.lower (by simpa using wellFormed.2.1) white split

/-- What a shell makes of a command that is accepted. -/
theorem vetted_of_accepted (keeps : KeepsAscii texts other)
    (accepted : Accepted (searched texts command)) (tokenized : tokenize command = some tokens) :
    Vetted command tokens := by
  have cut := tokenize_cut tokenized
  have operators : ∀ token ∈ tokens, token.kind = .operator →
      token.spelling ∉ separators := by
    intro token mem _
    exact not_mem_separators keeps accepted (cut.inside mem)
  refine ⟨operators, ?_, ?_, ?_, ?_, ?_, ?_⟩
  · intro token mem substitutes
    have wellFormed := cut.wellFormed token mem
    simp only [Shell.language, substitutes] at wellFormed
    exact not_holdsSubstitution keeps accepted ((wellFormed.2.2 trivial).mono (cut.inside mem))
  · exact isSimpleCommand_of_alone cut operators
  · intro front part behind whole ascii unmarked pattern isDenied
    exact no_denied keeps accepted whole ascii unmarked isDenied
  · intro token mem word ascii program isProgram
    have isDenied : ∀ program ∈ ["mkfs", "shutdown", "reboot"], program ∈ denied := by
      decide +kernel
    obtain ⟨before, after, split⟩ := List.append_of_mem mem
    obtain ⟨rest, source⟩ := cut.source
    have whole : command = sourceOf (before ++ [token]) ++ (sourceOf after ++ rest) := by
      rw [source, split]
      simp
    exact no_denied keeps accepted (eq_around_word whole) ascii
      (unmarked_of_cut cut split word whole) (isDenied program isProgram)
  · rintro before token after behind split word ascii whole ⟨program, isProgram, ends⟩
    exact head?_ne_space_of_privileged keeps accepted ascii whole isProgram ends
  · intro first rest blank behind split word plain isRm isBlank whole recursive mem force memForce
      word₁ apart₁ plain₁ flag₁ word₂ apart₂ plain₂
    by_contra flag₂
    rw [Bool.not_eq_false] at flag₂
    have noRm := accepted.noRm
    have later : ∀ token ∈ rest, token ∈ tokens := fun token mem =>
      split ▸ List.mem_cons_of_mem _ mem
    rw [head?_searched keeps cut (split ▸ List.mem_cons_self) word plain isBlank whole,
      any_hasFlag keeps cut (later _ mem) word₁ apart₁ plain₁ (by decide) flag₁,
      any_hasFlag keeps cut (later _ memForce) word₂ apart₂ plain₂ (by decide) flag₂,
      Option.any_some, isRm] at noRm
    cases noRm

/-- Where there is no command there is nothing to look at, and a command that is accepted
is one that a shell reads as such. -/
theorem validateSandboxArgs_vetted (keeps : KeepsAscii texts other) (args : Value) :
    (args.get "command" = none → validateSandboxArgs texts args = .ok ()) ∧
      ∀ text, args.getStr "command" = some text → validateSandboxArgs texts args = .ok () →
        ∀ tokens, tokenize text.toList = some tokens → Vetted text.toList tokens := by
  constructor
  · intro nothing
    have noText : args.getStr "command" = none := by
      simp [Value.getStr, nothing]
    unfold validateSandboxArgs
    rw [noText]
  · intro text isCommand ok tokens tokenized
    exact vetted_of_accepted keeps (accepted_of_ok ok isCommand) tokenized

/-- Texts in which only ASCII characters are put in lower case. -/
def plainTexts : Texts where
  same _ _ := false
  display _ := ""
  nfkc := id
  toLowercase text := String.ofList (lowercase (fun _ c _ => [c]) [] text.toList)

theorem plainTexts_keepsAscii : KeepsAscii plainTexts fun _ c _ => [c] where
  nfkc _ _ _ _ _ := by simp [plainTexts]
  empty := rfl
  lower _ := by simp [plainTexts]

/-- The arguments of a call with a command. -/
def commandArgs (command : String) : Value :=
  .object [("command", .string command)]

theorem list_command_vetted :
    ((commandArgs "ls -l").get "command" = none →
      validateSandboxArgs plainTexts (commandArgs "ls -l") = .ok ()) ∧
      ∀ text, (commandArgs "ls -l").getStr "command" = some text →
        validateSandboxArgs plainTexts (commandArgs "ls -l") = .ok () →
          ∀ tokens, tokenize text.toList = some tokens → Vetted text.toList tokens :=
  validateSandboxArgs_vetted plainTexts_keepsAscii _

/-- A command whose output goes to a file is accepted, and so are arguments in which a
command stands under another name. -/
theorem redirection_accepted :
    (validateSandboxArgs plainTexts (commandArgs "ls -l > out") = .ok () ∧
      (tokenize "ls -l > out".toList).map (·.map fun token =>
          (token.kind, String.ofList token.spelling))
        = some [(.word false, "ls"), (.word false, "-l"), (.operator, ">"),
          (.word false, "out")]) ∧
      validateSandboxArgs plainTexts (.object [("script", .string "ls -l")]) = .ok () := by
  decide +kernel

end ClotoCore.Mcp.SandboxArgs
