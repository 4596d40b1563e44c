import Mathlib.Data.List.Basic

/-!
# Texts that are read into tokens

A text is read character by character.  A token keeps the gap before it, so that the
tokens give back the text.  A language says what its tokens and its gaps hold, and which
characters may stand behind a token that does not end itself; what each way to read on
keeps is stated here once for all languages.
-/

namespace ClotoCore.Scanning

universe u v

variable {κ : Type u} {σ : Type v}

/-! ## Tokens -/

/-- A token and the gap before it. -/
structure Token (κ : Type u) where
  kind : κ
  gap : List Char
  spelling : List Char
  deriving DecidableEq, Repr

/-- The characters that a token and its gap take up. -/
def Token.source (token : Token κ) : List Char :=
  token.gap ++ token.spelling

/-- The characters that tokens take up. -/
def sourceOf (tokens : List (Token κ)) : List Char :=
  tokens.flatMap Token.source

@[simp]
theorem sourceOf_nil : sourceOf ([] : List (Token κ)) = [] :=
  rfl

@[simp]
theorem sourceOf_cons (token : Token κ) (tokens : List (Token κ)) :
    sourceOf (token :: tokens) = token.source ++ sourceOf tokens := by
  simp [sourceOf]

@[simp]
theorem sourceOf_append (first second : List (Token κ)) :
    sourceOf (first ++ second) = sourceOf first ++ sourceOf second := by
  simp [sourceOf]

/-! ## Reading -/

/-- A text that is read so far: its tokens, the gap behind them, and what is to follow. -/
structure Scan (κ : Type u) (σ : Type v) where
  tokens : List (Token κ)
  gap : List Char
  state : σ
  deriving DecidableEq, Repr

/-- Characters that belong to the gap. -/
def Scan.skip (scan : Scan κ σ) (state : σ) (skipped : List Char) : Scan κ σ :=
  { scan with gap := scan.gap ++ skipped, state := state }

/-- A character that belongs to the token that is read. -/
def Scan.keep (scan : Scan κ σ) (state : σ) : Scan κ σ :=
  { scan with state := state }

/-- A token that is read to its end. -/
def Scan.close (scan : Scan κ σ) (kind : κ) (spelling : List Char) (state : σ) : Scan κ σ :=
  { tokens := scan.tokens ++ [⟨kind, scan.gap, spelling⟩], gap := [], state := state }

/-! ## Languages -/

/-- What a language says of the texts that are read in it. -/
structure Language (κ : Type u) (σ : Type v) where
  /-- What is read of a token so far. -/
  held : σ → List Char
  /-- What holds of each token. -/
  wellFormed : Token κ → Prop
  /-- The characters that may stand behind a token, unless it ends itself. -/
  stop : κ → Option (Char → Bool)
  /-- What holds of the gap and of the token that is read. -/
  opened : List Char → σ → Prop

namespace Language

variable (language : Language κ σ)

/-- Behind each token stands a character that may stand there. -/
def Ends : List (Token κ) → List Char → Prop
  | [], _ => True
  | token :: tokens, behind =>
      (∀ stop, language.stop token.kind = some stop →
        ∃ c rest, sourceOf tokens ++ behind = c :: rest ∧ stop c = true) ∧
      Ends tokens behind

variable {language}

theorem Ends.extend {tokens : List (Token κ)} {behind : List Char}
    (ends : language.Ends tokens behind) (more : List Char) :
    language.Ends tokens (behind ++ more) := by
  induction tokens with
  | nil => trivial
  | cons token tokens ih =>
      refine ⟨fun stop stops => ?_, ih ends.2⟩
      obtain ⟨c, rest, cut, stopped⟩ := ends.1 stop stops
      exact ⟨c, rest ++ more, by rw [← List.append_assoc, cut, List.cons_append], stopped⟩

theorem ends_concat_iff {tokens : List (Token κ)} {token : Token κ} {behind : List Char} :
    language.Ends (tokens ++ [token]) behind ↔
      language.Ends tokens (token.source ++ behind) ∧
        ∀ stop, language.stop token.kind = some stop →
          ∃ c rest, behind = c :: rest ∧ stop c = true := by
  induction tokens with
  | nil => simp [Ends]
  | cons first tokens ih =>
      simp only [List.cons_append, Ends, ih, sourceOf_append, sourceOf_cons, sourceOf_nil,
        List.append_nil, List.append_assoc]
      exact and_assoc.symm

/-- What stands behind one of the tokens. -/
theorem Ends.behind {before after : List (Token κ)} {token : Token κ} {behind : List Char}
    (ends : language.Ends (before ++ token :: after) behind) {stop : Char → Bool}
    (stops : language.stop token.kind = some stop) :
    ∃ c rest, sourceOf after ++ behind = c :: rest ∧ stop c = true := by
  induction before with
  | nil => exact ends.1 stop stops
  | cons first before ih => exact ih ends.2

variable (language)

/-- What holds of a text that is read so far. -/
structure Reads (scan : Scan κ σ) (text : List Char) : Prop where
  source : sourceOf scan.tokens ++ (scan.gap ++ language.held scan.state) = text
  wellFormed : ∀ token ∈ scan.tokens, language.wellFormed token
  ends : language.Ends scan.tokens (scan.gap ++ language.held scan.state)
  opened : language.opened scan.gap scan.state

/-- A text of which the characters before `c` are read, `spelling` of them to a token. -/
structure Ready (scan : Scan κ σ) (spelling text : List Char) (c : Char) : Prop where
  source : sourceOf scan.tokens ++ (scan.gap ++ spelling) = text
  wellFormed : ∀ token ∈ scan.tokens, language.wellFormed token
  ends : language.Ends scan.tokens (scan.gap ++ spelling ++ [c])

variable {language} {scan : Scan κ σ} {spelling text : List Char} {c : Char} {kind : κ}
  {state : σ}

theorem Reads.ready (reads : language.Reads scan text) (c : Char) :
    language.Ready scan (language.held scan.state) text c :=
  ⟨reads.source, reads.wellFormed, reads.ends.extend [c]⟩

theorem Ready.skip (ready : language.Ready scan spelling text c)
    (held : language.held state = [])
    (opened : language.opened (scan.gap ++ (spelling ++ [c])) state) :
    language.Reads (scan.skip state (spelling ++ [c])) (text ++ [c]) where
  source := by
    rw [← ready.source]
    simp [Scan.skip, held]
  wellFormed := ready.wellFormed
  ends := by simpa [Scan.skip, held] using ready.ends
  opened := opened

theorem Ready.keep (ready : language.Ready scan spelling text c)
    (held : language.held state = spelling ++ [c]) (opened : language.opened scan.gap state) :
    language.Reads (scan.keep state) (text ++ [c]) where
  source := by
    rw [← ready.source]
    simp [Scan.keep, held]
  wellFormed := ready.wellFormed
  ends := by simpa [Scan.keep, held] using ready.ends
  opened := opened

theorem wellFormed_concat {tokens : List (Token κ)} {token : Token κ}
    (each : ∀ token ∈ tokens, language.wellFormed token) (last : language.wellFormed token) :
    ∀ other ∈ tokens ++ [token], language.wellFormed other := by
  intro other mem
  rcases List.mem_append.mp mem with mem | mem
  · exact each other mem
  · rw [List.mem_singleton.mp mem]
    exact last

/-- A token that its last character ends. -/
theorem Ready.closeWith (ready : language.Ready scan spelling text c)
    (endsItself : language.stop kind = none)
    (wellFormed : language.wellFormed ⟨kind, scan.gap, spelling ++ [c]⟩)
    (held : language.held state = []) (opened : language.opened [] state) :
    language.Reads (scan.close kind (spelling ++ [c]) state) (text ++ [c]) where
  source := by
    rw [← ready.source]
    simp [Scan.close, held, Token.source]
  wellFormed := wellFormed_concat ready.wellFormed wellFormed
  ends := by
    refine ends_concat_iff.mpr ⟨?_, fun stop stops => ?_⟩
    · simpa [Scan.close, held, Token.source] using ready.ends
    · rw [endsItself] at stops
      cases stops
  opened := opened

/-- A token that the character behind it ends. -/
theorem Ready.close (ready : language.Ready scan spelling text c)
    (stopped : ∀ stop, language.stop kind = some stop → stop c = true)
    (wellFormed : language.wellFormed ⟨kind, scan.gap, spelling⟩) :
    language.Ready (scan.close kind spelling state) [] text c where
  source := by
    rw [← ready.source]
    simp [Scan.close, Token.source]
  wellFormed := wellFormed_concat ready.wellFormed wellFormed
  ends := by
    refine ends_concat_iff.mpr ⟨?_, fun stop stops => ⟨c, [], rfl, stopped stop stops⟩⟩
    simpa [Scan.close, Token.source] using ready.ends

/-- Any number of characters read, if each keeps what holds of the text before it. -/
theorem Reads.run {step : Scan κ σ → Char → Option (Scan κ σ)}
    (preserved : ∀ {scan read text c}, language.Reads scan text → step scan c = some read →
      language.Reads read (text ++ [c]))
    {more : List Char} {read : Scan κ σ} (reads : language.Reads scan text)
    (run : more.foldlM step scan = some read) : language.Reads read (text ++ more) := by
  induction more generalizing scan text with
  | nil =>
      cases run
      simpa using reads
  | cons c more ih =>
      simp only [List.foldlM_cons, Option.bind_eq_bind, Option.bind_eq_some_iff] at run
      obtain ⟨first, stepped, rest⟩ := run
      simpa using ih (preserved reads stepped) rest

theorem Reads.fold {step : Scan κ σ → Char → Scan κ σ}
    (preserved : ∀ {scan text c}, language.Reads scan text →
      language.Reads (step scan c) (text ++ [c]))
    {more : List Char} (reads : language.Reads scan text) :
    language.Reads (more.foldl step scan) (text ++ more) := by
  induction more generalizing scan text with
  | nil => simpa using reads
  | cons c more ih => simpa using ih (preserved reads)

/-! ## The tokens of a text -/

variable (language)

/-- What a text is cut into. -/
structure Cut (tokens : List (Token κ)) (text : List Char) : Prop where
  source : ∃ rest, text = sourceOf tokens ++ rest
  wellFormed : ∀ token ∈ tokens, language.wellFormed token
  ends : ∀ before token after rest, tokens = before ++ token :: after →
    ∀ stop, language.stop token.kind = some stop →
      text = sourceOf (before ++ [token]) ++ rest → ∀ c more, rest = c :: more → stop c = true

variable {language}

/-- Each token is spelled in the text. -/
theorem Cut.inside {tokens : List (Token κ)} {token : Token κ} (cut : language.Cut tokens text)
    (mem : token ∈ tokens) : token.spelling <:+: text := by
  obtain ⟨rest, whole⟩ := cut.source
  obtain ⟨before, after, rfl⟩ := List.append_of_mem mem
  refine ⟨sourceOf before ++ token.gap, sourceOf after ++ rest, ?_⟩
  rw [whole]
  simp [Token.source]

/-- Tokens that follow each other stand side by side in the text. -/
theorem Cut.adjacent {tokens before after : List (Token κ)} {first second : Token κ}
    (cut : language.Cut tokens text) (split : tokens = before ++ first :: second :: after) :
    first.spelling ++ second.gap ++ second.spelling <:+: text := by
  obtain ⟨rest, whole⟩ := cut.source
  refine ⟨sourceOf before ++ first.gap, sourceOf after ++ rest, ?_⟩
  rw [whole, split]
  simp [Token.source]

theorem Reads.cut (reads : language.Reads scan text) : language.Cut scan.tokens text where
  source := ⟨scan.gap ++ language.held scan.state, reads.source.symm⟩
  wellFormed := reads.wellFormed
  ends := by
    intro before token after rest split stop stops whole c more starts
    have ends := reads.ends
    rw [split] at ends
    obtain ⟨first, others, behind, stopped⟩ := ends.behind stops
    have same : rest = sourceOf after ++ (scan.gap ++ language.held scan.state) := by
      have source := reads.source
      rw [whole, split] at source
      simpa using source.symm
    rw [same, behind] at starts
    cases starts
    exact stopped

/-- The end of a text ends the token that is read. -/
theorem Reads.cut_close (reads : language.Reads scan text)
    (held : language.held scan.state = spelling)
    (wellFormed : language.wellFormed ⟨kind, scan.gap, spelling⟩) :
    language.Cut (scan.close kind spelling state).tokens text where
  source := by
    refine ⟨[], ?_⟩
    rw [← reads.source, held]
    simp [Scan.close, Token.source]
  wellFormed := wellFormed_concat reads.wellFormed wellFormed
  ends := by
    intro before token after rest split stop stops whole c more starts
    have source := reads.source
    rcases List.eq_nil_or_concat' after with rfl | ⟨others, last, rfl⟩
    · obtain ⟨same, last⟩ := List.append_inj' split rfl
      cases last
      rw [whole, same, held] at source
      simp [Token.source, starts] at source
    · have closed : (scan.close kind spelling state).tokens =
          (before ++ token :: others) ++ [last] := by
        simpa using split
      have closed := (List.append_inj' closed rfl).1
      exact reads.cut.ends before token others rest closed stop stops whole c more starts

end Language

end ClotoCore.Scanning
