import ClotoCore.Python.Tokens

/-!
# Imports and calls

What the import statements of a program name, and which names it calls, read off its
tokens.  The word `import` is reserved, so that it stands in import statements only:
either it opens one or it ends the clause that `from` opens.
-/

namespace ClotoCore.Python

/-- A name with this spelling. -/
def isWord (token : Token) (word : String) : Bool :=
  token.kind == .name && token.spelling == word.toList

theorem spelling_of_isWord {token : Token} {word : String}
    (found : isWord token word = true) : token.spelling = word.toList := by
  simpa [isWord] using (Bool.and_eq_true_iff.mp found).2

/-- This sign. -/
def isSign (token : Token) (c : Char) : Bool :=
  token.kind == .sign && token.spelling == [c]

theorem spelling_of_isSign {token : Token} {c : Char} (found : isSign token c = true) :
    token.spelling = [c] := by
  simpa [isSign] using (Bool.and_eq_true_iff.mp found).2

/-- A name that is neither of the words of an import statement. -/
def isIdentifier (token : Token) : Bool :=
  token.kind == .name && !isWord token "import" && !isWord token "from"

theorem isIdentifier_iff {token : Token} :
    isIdentifier token = true ↔ token.kind = .name ∧ token.spelling ≠ "import".toList ∧
      token.spelling ≠ "from".toList := by
  cases token with
  | mk kind gap spelling => cases kind <;> simp [isIdentifier, isWord]

/-! ## Import statements -/

/-- A module that an import statement names: the tokens before the statement's first
word, that word, what stands between it and the module, and the first name of the
module's dotted path. -/
structure Mention where
  before : List Token
  keyword : Token
  lead : List Token
  head : Token

/-- The modules of a list `a.b as c, d`, of which `lead` is read; `fresh` says whether a
module is to follow. -/
def listed (before : List Token) (keyword : Token) (lead : List Token) :
    Bool → List Token → List Mention
  | _, [] => []
  | true, token :: rest =>
      if isIdentifier token then
        ⟨before, keyword, lead, token⟩ :: listed before keyword (lead ++ [token]) false rest
      else []
  | false, token :: rest =>
      if isSign token ',' then listed before keyword (lead ++ [token]) true rest
      else if isSign token '.' || isIdentifier token then
        listed before keyword (lead ++ [token]) false rest
      else []

/-- Whether a clause that `from` opens goes on to the word `import`. -/
def clause : List Token → Bool
  | [] => false
  | token :: rest =>
      isWord token "import" || ((isSign token '.' || isIdentifier token) && clause rest)

/-- The module of a clause, unless it is a relative one. -/
def clauseModule (before : List Token) (keyword : Token) : List Token → List Mention
  | head :: _ => if isIdentifier head then [⟨before, keyword, [], head⟩] else []
  | [] => []

/-- The modules that the import statements behind `before` name; `inClause` says whether
the next word `import` ends a clause. -/
def mentions (before : List Token) : Bool → List Token → List Mention
  | _, [] => []
  | inClause, token :: rest =>
      if isWord token "import" then
        (if inClause then [] else listed before token [] true rest) ++
          mentions (before ++ [token]) false rest
      else if isWord token "from" && clause rest then
        clauseModule before token rest ++ mentions (before ++ [token]) true rest
      else mentions (before ++ [token]) inClause rest

/-- The modules that the import statements of a program name. -/
def importedModules (tokens : List Token) : List Mention :=
  mentions [] false tokens

/-- Where a mention stands. -/
structure Mention.In (mention : Mention) (tokens : List Token) : Prop where
  split : ∃ after, tokens =
    mention.before ++ mention.keyword :: (mention.lead ++ mention.head :: after)
  keyword : isWord mention.keyword "import" = true ∨ isWord mention.keyword "from" = true
  head : isIdentifier mention.head = true

theorem listed_in {before lead : List Token} {keyword : Token} {fresh : Bool}
    {rest : List Token} {mention : Mention}
    (mem : mention ∈ listed before keyword lead fresh rest) :
    mention.before = before ∧ mention.keyword = keyword ∧ isIdentifier mention.head = true ∧
      ∃ after, lead ++ rest = mention.lead ++ mention.head :: after := by
  induction rest generalizing lead fresh with
  | nil =>
      cases fresh <;> simp [listed] at mem
  | cons token rest ih =>
      cases fresh with
      | true =>
          simp only [listed] at mem
          split at mem
          case isTrue identifier =>
            rcases List.mem_cons.mp mem with rfl | mem
            · exact ⟨rfl, rfl, identifier, rest, rfl⟩
            · simpa using ih mem
          case isFalse => simp at mem
      | false =>
          simp only [listed] at mem
          split at mem
          · simpa using ih mem
          split at mem
          · simpa using ih mem
          · simp at mem

theorem mentions_in {before : List Token} {inClause : Bool} {rest : List Token}
    {mention : Mention} (mem : mention ∈ mentions before inClause rest) :
    mention.In (before ++ rest) := by
  induction rest generalizing before inClause with
  | nil => simp [mentions] at mem
  | cons token rest ih =>
      have later : ∀ {inClause : Bool}, mention ∈ mentions (before ++ [token]) inClause rest →
          mention.In (before ++ token :: rest) := fun mem => by
        simpa using ih mem
      simp only [mentions] at mem
      split at mem
      case isTrue opens =>
        rcases List.mem_append.mp mem with mem | mem
        · cases inClause with
          | true => simp at mem
          | false =>
              obtain ⟨same, word, head, after, split⟩ := listed_in mem
              exact ⟨⟨after, by rw [same, word, ← split, List.nil_append]⟩,
                .inl (by rw [word]; exact opens), head⟩
        · exact later mem
      split at mem
      case isTrue opens =>
        rcases List.mem_append.mp mem with mem | mem
        · cases rest with
          | nil => simp [clauseModule] at mem
          | cons head rest =>
              simp only [clauseModule] at mem
              split at mem
              case isTrue identifier =>
                rw [List.mem_singleton.mp mem]
                exact ⟨⟨rest, rfl⟩, .inr (Bool.and_eq_true_iff.mp opens).1, identifier⟩
              case isFalse => simp at mem
        · exact later mem
      · exact later mem

/-- A module that is named stands behind the first word of its statement. -/
theorem importedModules_in {tokens : List Token} {mention : Mention}
    (mem : mention ∈ importedModules tokens) : mention.In tokens :=
  mentions_in mem

/-! ## Calls -/

/-- A call of a name: the tokens before it, the name and the bracket behind it. -/
structure Call where
  before : List Token
  callee : Token
  bracket : Token

/-- The names that are called behind `before`; `bare` says whether a name that follows
stands for itself, and is neither an attribute nor defined there. -/
def callsFrom (before : List Token) : Bool → List Token → List Call
  | _, [] => []
  | _, [_] => []
  | bare, callee :: bracket :: rest =>
      (if bare && isIdentifier callee && isSign bracket '(' then [⟨before, callee, bracket⟩]
        else []) ++
      callsFrom (before ++ [callee])
        (!(isSign callee '.' || isWord callee "def" || isWord callee "class")) (bracket :: rest)

/-- The calls of names in a program. -/
def calls (tokens : List Token) : List Call :=
  callsFrom [] true tokens

theorem callsFrom_in {before : List Token} {bare : Bool} {rest : List Token} {call : Call}
    (mem : call ∈ callsFrom before bare rest) :
    isSign call.bracket '(' = true ∧
      ∃ after, before ++ rest = call.before ++ call.callee :: call.bracket :: after := by
  induction rest generalizing before bare with
  | nil => simp [callsFrom] at mem
  | cons callee rest ih =>
      cases rest with
      | nil => simp [callsFrom] at mem
      | cons bracket rest =>
          rw [callsFrom] at mem
          rcases List.mem_append.mp mem with mem | mem
          · split at mem
            case isTrue called =>
              rw [List.mem_singleton.mp mem]
              exact ⟨(Bool.and_eq_true_iff.mp called).2, rest, rfl⟩
            case isFalse => simp at mem
          · simpa using ih mem

/-- A bracket stands behind the name that is called. -/
theorem calls_in {tokens : List Token} {call : Call} (mem : call ∈ calls tokens) :
    isSign call.bracket '(' = true ∧
      ∃ after, tokens = call.before ++ call.callee :: call.bracket :: after := by
  simpa using callsFrom_in mem

end ClotoCore.Python
