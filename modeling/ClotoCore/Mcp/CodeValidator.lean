import ClotoCore.Encoding.Words
import ClotoCore.Python.Statements
import Mathlib.Data.List.Infix

/-!
# Validated code

The code of a generated server is searched for strings.  Python spells an import and a call
in more ways than these strings, and what is spelled otherwise is not found.
-/

namespace ClotoCore.Mcp

open ClotoCore.Encoding ClotoCore.Python ClotoCore.Scanning

/-! ## What is searched for -/

/-- `CodeSafetyLevel` -/
inductive CodeSafetyLevel where
  | unrestricted
  | standard
  | strict
  | readonly
  deriving DecidableEq, Repr

/-- `BLOCKED_IMPORTS` -/
def blockedImports : List String :=
  ["subprocess", "shutil", "socket", "ctypes", "multiprocessing", "signal", "pty", "fcntl",
    "resource", "importlib", "code", "codeop", "compileall", "py_compile"]

/-- `BLOCKED_PATTERNS` -/
def blockedPatterns : List String :=
  ["eval(", "exec(", "__import__(", "compile(", "open(", "globals(", "locals(", "os.system",
    "os.popen", "os.spawn", "os.exec", "os.remove", "os.unlink", "os.rmdir", "os.makedirs",
    "subprocess.", "__builtins__", "getattr(", "setattr(", "delattr("]

/-- `MAX_CODE_SIZE` -/
def maxCodeSize : Nat :=
  10000

/-- `STRICT_ALLOWED_IMPORTS` -/
def strictAllowedImports : List String :=
  ["asyncio", "json", "httpx", "os", "datetime", "time", "math", "re", "hashlib", "base64",
    "urllib", "typing"]

/-- `READONLY_BLOCKED_PATTERNS` -/
def readonlyBlockedPatterns : List String :=
  ["open(", ".write(", ".writelines(", "os.mkdir", "os.makedirs", "os.rename", "os.replace",
    "os.remove", "os.unlink", "os.rmdir", "shutil.", "pathlib.Path.write_", ".to_csv(",
    ".to_json(", ".to_parquet("]

/-- Whether the allowlist is checked. -/
def CodeSafetyLevel.hasAllowlist : CodeSafetyLevel → Bool
  | .strict | .readonly => true
  | .unrestricted | .standard => false

/-! ## The validator -/

/-- `contains` -/
def holds (text : List Char) (part : String) : Bool :=
  text.tails.any part.toList.isPrefixOf

theorem holds_iff {text : List Char} {part : String} :
    holds text part = true ↔ part.toList <:+: text := by
  simp only [holds, List.any_eq_true, List.mem_tails, List.isPrefixOf_iff_prefix]
  constructor
  · rintro ⟨rest, suffix, front⟩
    exact front.isInfix.trans suffix.isInfix
  · rintro ⟨front, back, rfl⟩
    exact ⟨part.toList ++ back, ⟨front, by simp⟩, List.prefix_append _ _⟩

/-- The strings that stand for an import of a module. -/
def importPatterns (blocked : String) : List String :=
  ["import " ++ blocked, "from " ++ blocked]

/-- The module that a line imports, as far as the allowlist is concerned. -/
def lineModule (line : List Char) : Option (List Char) :=
  let trimmed := trimChars line
  if "import ".toList.isPrefixOf trimmed || "from ".toList.isPrefixOf trimmed then
    let named := trimStartMatches "import ".toList (trimStartMatches "from ".toList trimmed)
    let word := (named.dropWhile isWhitespace).takeWhile fun c => !isWhitespace c
    match word.takeWhile (· != '.') with
    | [] => none
    | module => some module
  else none

/-- Whether the allowlist has a module. -/
def inAllowlist (module : List Char) : Bool :=
  strictAllowedImports.any fun allowed => allowed.toList == module

section

variable (other : List Char → Char → List Char → List Char)

/-- The violations of each check. -/
def violations (code : String) (level : CodeSafetyLevel) : List String :=
  let codeLower := lowercase other [] code.toList
  (if code.utf8ByteSize > maxCodeSize then
    [s!"Code too large: {code.utf8ByteSize} bytes (max {maxCodeSize})"] else []) ++
  ((blockedImports.filter fun blocked => (importPatterns blocked).any (holds codeLower)).map
    fun blocked => s!"Blocked import: '{blocked}'") ++
  ((blockedPatterns.filter (holds codeLower)).map
    fun pattern => s!"Blocked pattern: '{pattern}'") ++
  (if level.hasAllowlist then
    (((lines code.toList).filterMap lineModule).filter fun module => !inAllowlist module).map
      fun module => s!"Import not in strict allowlist: '{String.ofList module}'"
    else []) ++
  (if level = .readonly then
    (readonlyBlockedPatterns.filter (holds code.toList)).map
      fun pattern => s!"Readonly violation: write pattern '{pattern}'"
    else [])

/-- `validate_mcp_code` -/
def validateMcpCode (code : String) (level : CodeSafetyLevel) : Except (List String) Unit :=
  if level = .unrestricted then .ok ()
  else
    match violations other code level with
    | [] => .ok ()
    | errors => .error errors

/-- A text that one of the checks finds something in. -/
inductive Tripped (code : String) (level : CodeSafetyLevel) : Prop
  | size (large : code.utf8ByteSize > maxCodeSize)
  | blockedImport (blocked pattern : String) (mem : blocked ∈ blockedImports)
      (spelled : pattern ∈ importPatterns blocked)
      (found : holds (lowercase other [] code.toList) pattern = true)
  | blockedPattern (pattern : String) (mem : pattern ∈ blockedPatterns)
      (found : holds (lowercase other [] code.toList) pattern = true)
  | allowlist (line module : List Char) (checked : level.hasAllowlist = true)
      (mem : line ∈ lines code.toList) (imports : lineModule line = some module)
      (notAllowed : inAllowlist module = false)
  | writes (pattern : String) (checked : level = .readonly)
      (mem : pattern ∈ readonlyBlockedPatterns) (found : holds code.toList pattern = true)

end

variable {other : List Char → Char → List Char → List Char} {code : String}
  {level : CodeSafetyLevel}

/-- A text is refused exactly if a check finds something in it. -/
theorem violations_ne_nil_iff : violations other code level ≠ [] ↔ Tripped other code level := by
  constructor
  · intro nonempty
    obtain ⟨error, mem⟩ := List.exists_mem_of_ne_nil _ nonempty
    simp only [violations, List.mem_append, or_assoc] at mem
    rcases mem with mem | mem | mem | mem | mem
    · split at mem
      case isTrue large => exact .size large
      case isFalse => simp at mem
    · obtain ⟨blocked, mem, -⟩ := List.mem_map.mp mem
      obtain ⟨mem, found⟩ := List.mem_filter.mp mem
      obtain ⟨pattern, spelled, found⟩ := List.any_eq_true.mp found
      exact .blockedImport blocked pattern mem spelled found
    · obtain ⟨pattern, mem, -⟩ := List.mem_map.mp mem
      obtain ⟨mem, found⟩ := List.mem_filter.mp mem
      exact .blockedPattern pattern mem found
    · split at mem
      case isTrue checked =>
        obtain ⟨module, mem, -⟩ := List.mem_map.mp mem
        obtain ⟨mem, notAllowed⟩ := List.mem_filter.mp mem
        obtain ⟨line, mem, imports⟩ := List.mem_filterMap.mp mem
        exact .allowlist line module checked mem imports (by simpa using notAllowed)
      case isFalse => simp at mem
    · split at mem
      case isTrue checked =>
        obtain ⟨pattern, mem, -⟩ := List.mem_map.mp mem
        obtain ⟨mem, found⟩ := List.mem_filter.mp mem
        exact .writes pattern checked mem found
      case isFalse => simp at mem
  · intro tripped empty
    simp only [violations, List.append_eq_nil_iff, List.map_eq_nil_iff, List.filter_eq_nil_iff]
      at empty
    obtain ⟨⟨⟨⟨small, imports⟩, patterns⟩, allowlist⟩, writes⟩ := empty
    cases tripped with
    | size large => simp [large] at small
    | blockedImport blocked pattern mem spelled found =>
        exact imports blocked mem (List.any_eq_true.mpr ⟨pattern, spelled, found⟩)
    | blockedPattern pattern mem found => exact patterns pattern mem found
    | allowlist line module checked mem imports notAllowed =>
        rw [if_pos checked, List.map_eq_nil_iff, List.filter_eq_nil_iff] at allowlist
        exact allowlist module (List.mem_filterMap.mpr ⟨line, mem, imports⟩) (by simp [notAllowed])
    | writes pattern checked mem found =>
        rw [if_pos checked, List.map_eq_nil_iff, List.filter_eq_nil_iff] at writes
        exact writes pattern mem found

theorem validateMcpCode_eq_ok_iff :
    validateMcpCode other code level = .ok () ↔
      level = .unrestricted ∨ ¬Tripped other code level := by
  rw [← violations_ne_nil_iff, not_not]
  unfold validateMcpCode
  split
  case isTrue free => simp [free]
  case isFalse checked =>
    cases violations other code level <;> simp [checked]

/-! ## What a program may not do -/

/-- The modules that a level blocks, submodules with them. -/
def blocksModule (level : CodeSafetyLevel) (name : List Char) : Bool :=
  level != .unrestricted &&
    (blockedImports.any (fun blocked => blocked.toList == name) ||
      level.hasAllowlist && !inAllowlist name)

/-- The builtins among the patterns: those that are spelled with a bracket. -/
def blockedBuiltins : List (List Char) :=
  (blockedPatterns.map String.toList).filterMap fun pattern =>
    if pattern.getLast? = some '(' then some pattern.dropLast else none

/-- Whether a level blocks a builtin. -/
def blocksBuiltin (level : CodeSafetyLevel) (name : List Char) : Bool :=
  level != .unrestricted && blockedBuiltins.contains name

section

/- The form in which Python compares names (NFKC). -/
variable (normalize : List Char → List Char)

/-- No import statement of the program names a blocked module or a submodule of one, and no
blocked builtin is called by its name. -/
def CodeSound (code : String) (level : CodeSafetyLevel) : Prop :=
  ∀ tokens, tokenize code.toList = some tokens →
    (∀ mention ∈ importedModules tokens,
      blocksModule level (normalize mention.head.spelling) = false) ∧
    ∀ call ∈ calls tokens, blocksBuiltin level (normalize call.callee.spelling) = false

/-- What `CodeSound` says, as a check of the tokens. -/
def soundCheck (code : String) (level : CodeSafetyLevel) : Bool :=
  (tokenize code.toList).all fun tokens =>
    (importedModules tokens).all
      (fun mention => !blocksModule level (normalize mention.head.spelling)) &&
    (calls tokens).all fun call => !blocksBuiltin level (normalize call.callee.spelling)

instance (code : String) (level : CodeSafetyLevel) : Decidable (CodeSound normalize code level) :=
  decidable_of_iff (soundCheck normalize code level = true) <| by
    simp [soundCheck, CodeSound, Option.all_eq_true]

/-! ## Spellings that are searched for -/

/-- The module is the first one of its statement, one blank behind the first word, and its
name is in the list as it is spelled. -/
def OneBlank (mention : Mention) : Prop :=
  mention.lead = [] ∧ mention.head.gap = [' '] ∧
    blockedImports.any (fun blocked => blocked.toList == mention.head.spelling) = true

/-- The statement is the first thing on its line, and a blank and no more than blanks stand
between its first word and its first module, which is this one. -/
def FirstOnLine (mention : Mention) : Prop :=
  mention.lead = [] ∧
    (∀ c ∈ lastLine (sourceOf mention.before ++ mention.keyword.gap), isWhitespace c = true) ∧
    (∃ blanks, mention.head.gap = ' ' :: blanks ∧ ∀ c ∈ blanks, isBlank c = true) ∧
    inAllowlist mention.head.spelling = false

/-- An import in a spelling that the checks of a level find. -/
def PlainImport (level : CodeSafetyLevel) (mention : Mention) : Prop :=
  OneBlank mention ∨ level.hasAllowlist = true ∧ FirstOnLine mention

/-- A call in a spelling that the checks find: the bracket stands right behind the name. -/
def PlainCall (call : Call) : Prop :=
  call.bracket.gap = [] ∧ blockedBuiltins.contains call.callee.spelling = true

/-- Something blocked is spelled otherwise. -/
def Hidden (code : String) (level : CodeSafetyLevel) : Prop :=
  ∃ tokens, tokenize code.toList = some tokens ∧
    ((∃ mention ∈ importedModules tokens,
      blocksModule level (normalize mention.head.spelling) = true ∧ ¬PlainImport level mention) ∨
    ∃ call ∈ calls tokens,
      blocksBuiltin level (normalize call.callee.spelling) = true ∧ ¬PlainCall call)

end

/-! ## What is spelled plainly is found -/

theorem importPatterns_kept :
    ∀ blocked ∈ blockedImports, ∀ pattern ∈ importPatterns blocked,
      KeptByLowercase pattern.toList := by
  decide +kernel

theorem blockedPatterns_kept :
    ∀ pattern ∈ blockedPatterns, KeptByLowercase pattern.toList := by
  decide +kernel

/-- An import with one blank is found by its string. -/
theorem tripped_of_oneBlank {tokens : List Token} {mention : Mention}
    (cut : language.Cut tokens code.toList) (inside : mention.In tokens)
    (plain : OneBlank mention) :
    Tripped other code level := by
  obtain ⟨noLead, gap, listed⟩ := plain
  obtain ⟨after, split⟩ := inside.split
  obtain ⟨blocked, mem, same⟩ := List.any_eq_true.mp listed
  have same : blocked.toList = mention.head.spelling := by simpa using same
  rw [noLead, List.nil_append] at split
  have found := cut.adjacent split
  rw [gap, ← same] at found
  have pattern : ∃ pattern ∈ importPatterns blocked,
      pattern.toList = mention.keyword.spelling ++ [' '] ++ blocked.toList := by
    rcases inside.keyword with isWord | isWord
    · refine ⟨"import " ++ blocked, by simp [importPatterns], ?_⟩
      rw [spelling_of_isWord isWord, String.toList_append]
      rfl
    · refine ⟨"from " ++ blocked, by simp [importPatterns], ?_⟩
      rw [spelling_of_isWord isWord, String.toList_append]
      rfl
  obtain ⟨pattern, spelled, same⟩ := pattern
  rw [← same] at found
  exact .blockedImport blocked pattern mem spelled
    (holds_iff.mpr (found_in_lowercase (importPatterns_kept blocked mem pattern spelled) found []))

/-- A call without a gap is found by its string. -/
theorem tripped_of_call {tokens : List Token} {call : Call} (cut : language.Cut tokens code.toList)
    (mem : call ∈ calls tokens) (plain : PlainCall call) : Tripped other code level := by
  obtain ⟨gap, listed⟩ := plain
  obtain ⟨bracket, after, split⟩ := calls_in mem
  have found := cut.adjacent split
  rw [gap, List.append_nil, spelling_of_isSign bracket] at found
  obtain ⟨chars, mem, cutLast⟩ := List.mem_filterMap.mp (List.contains_iff_mem.mp listed)
  obtain ⟨pattern, isPattern, rfl⟩ := List.mem_map.mp mem
  split at cutLast
  case isFalse => cases cutLast
  case isTrue last =>
    have whole : pattern.toList = call.callee.spelling ++ ['('] := by
      obtain ⟨front, same⟩ := List.getLast?_eq_some_iff.mp last
      rw [same, List.dropLast_concat] at cutLast
      rw [same, Option.some.inj cutLast]
    rw [← whole] at found
    exact .blockedPattern pattern isPattern
      (holds_iff.mpr (found_in_lowercase (blockedPatterns_kept pattern isPattern) found []))

/-! ## Lines that begin with an import -/

/-- What a name in a text goes on with is not part of it. -/
def NameEnds (back : List Char) : Prop :=
  ∀ c more, back = c :: more → isNameChar c = false

theorem NameEnds.of_prefix {back front : List Char} (ends : NameEnds back)
    (isPrefix : front <+: back) :
    NameEnds front := by
  rintro c more rfl
  obtain ⟨rest, rfl⟩ := isPrefix
  exact ends c (more ++ rest) rfl

variable {word blanks name back : List Char}

/-- A name is the characters of names at the front of the text. -/
theorem takeWhile_name (spelled : ∀ c ∈ name, isNameChar c = true) (ends : NameEnds back) :
    (name ++ back).takeWhile isNameChar = name := by
  rw [List.takeWhile_append_of_pos spelled]
  cases back with
  | nil => simp
  | cons c more => simp [ends c more rfl]

/-- Behind a word and its blanks, the word does not stand again unless it is the name. -/
theorem not_word_prefix (wordSpelled : ∀ c ∈ word, isNameChar c = true) (nonempty : word ≠ [])
    (blank : ∀ c ∈ blanks, isBlank c = true) (spelled : ∀ c ∈ name, isNameChar c = true)
    (ends : NameEnds back) (different : name ≠ word) :
    ¬(word ++ [' ']) <+: blanks ++ (name ++ back) := by
  rintro ⟨rest, whole⟩
  cases blanks with
  | nil =>
      refine different ?_
      rw [← takeWhile_name spelled ends, ← List.nil_append (name ++ back), ← whole,
        List.append_assoc]
      exact takeWhile_name wordSpelled fun c more starts => by
        cases starts
        decide
  | cons b blanks =>
      obtain ⟨c, others, rfl⟩ := List.exists_cons_of_ne_nil nonempty
      obtain ⟨rfl, -⟩ := List.cons.inj whole
      have isName := wordSpelled c List.mem_cons_self
      have isBlank := blank c List.mem_cons_self
      simp only [Python.isBlank, Bool.or_eq_true, beq_iff_eq] at isBlank
      rcases isBlank with (rfl | rfl) | rfl <;> exact absurd isName (by decide)

/-- The module of what follows an import's first word. -/
theorem exists_module (back : List Char) (blank : ∀ c ∈ blanks, isBlank c = true)
    (nonempty : name ≠ [])
    (spelled : ∀ c ∈ name, isNameChar c = true) :
    ∃ rest, (((blanks ++ (name ++ back)).dropWhile isWhitespace).takeWhile
      fun c => !isWhitespace c).takeWhile (· != '.') = name ++ rest ∧ rest <+: back := by
  have gone : (blanks ++ (name ++ back)).dropWhile isWhitespace = name ++ back := by
    rw [List.dropWhile_append_of_pos fun c mem => by
      have isBlank := blank c mem
      simp only [Python.isBlank, Bool.or_eq_true, beq_iff_eq] at isBlank
      rcases isBlank with (rfl | rfl) | rfl <;> decide]
    obtain ⟨c, others, rfl⟩ := List.exists_cons_of_ne_nil nonempty
    simp [isWhitespace_of_isNameChar (spelled c List.mem_cons_self)]
  rw [gone, List.takeWhile_append_of_pos fun c mem => by
      simp [isWhitespace_of_isNameChar (spelled c mem)],
    List.takeWhile_append_of_pos fun c mem => by
      have isName := spelled c mem
      rw [bne_iff_ne]
      rintro rfl
      exact absurd isName (by decide)]
  exact ⟨_, rfl, (List.takeWhile_prefix _).trans (List.takeWhile_prefix _)⟩

theorem strictAllowed_spelled :
    ∀ allowed ∈ strictAllowedImports, ∀ c ∈ allowed.toList, isNameChar c = true := by
  have checked : ∀ allowed ∈ strictAllowedImports, allowed.toList.all isNameChar = true := by
    decide +kernel
  exact fun allowed mem => List.all_eq_true.mp (checked allowed mem)

/-- A name that is not in the allowlist does not become one that is. -/
theorem not_inAllowlist_append (notAllowed : inAllowlist name = false) (ends : NameEnds back) :
    inAllowlist (name ++ back) = false := by
  cases back with
  | nil => simpa using notAllowed
  | cons c more =>
      rw [Bool.eq_false_iff]
      intro allowed
      obtain ⟨entry, mem, same⟩ := List.any_eq_true.mp allowed
      have isName := strictAllowed_spelled entry mem c (by simp [eq_of_beq same])
      rw [ends c more rfl] at isName
      cases isName

/-- The line of an import has a module that the allowlist lacks. -/
theorem lineModule_of_import {line : List Char} (isWord : word = "import".toList ∨
      word = "from".toList)
    (trimmed : trimChars line = word ++ ' ' :: (blanks ++ (name ++ back)))
    (blank : ∀ c ∈ blanks, isBlank c = true) (nonempty : name ≠ [])
    (spelled : ∀ c ∈ name, isNameChar c = true) (ends : NameEnds back)
    (notImport : name ≠ "import".toList) (notFrom : name ≠ "from".toList)
    (notAllowed : inAllowlist name = false) :
    ∃ module, lineModule line = some module ∧ inAllowlist module = false := by
  have noImport : ¬"import ".toList <+: blanks ++ (name ++ back) :=
    not_word_prefix (forall_mem_of_all (by decide)) (by decide) blank spelled ends notImport
  have noFrom : ¬"from ".toList <+: blanks ++ (name ++ back) :=
    not_word_prefix (forall_mem_of_all (by decide)) (by decide) blank spelled ends notFrom
  have named : trimStartMatches "import ".toList (trimStartMatches "from ".toList
      (trimChars line)) = blanks ++ (name ++ back) := by
    rw [trimmed]
    rcases isWord with rfl | rfl
    · have other : ¬"from ".toList <+: "import".toList ++ ' ' :: (blanks ++ (name ++ back)) := by
        rintro ⟨rest, same⟩
        cases same
      rw [trimStartMatches_of_other other]
      exact trimStartMatches_append (by decide) noImport
    · have once : trimStartMatches "from ".toList
          ("from".toList ++ ' ' :: (blanks ++ (name ++ back))) = blanks ++ (name ++ back) :=
        trimStartMatches_append (by decide) noFrom
      rw [once]
      exact trimStartMatches_of_other noImport
  have begins : ("import ".toList.isPrefixOf (trimChars line) ||
      "from ".toList.isPrefixOf (trimChars line)) = true := by
    rw [trimmed]
    rcases isWord with rfl | rfl <;> rfl
  obtain ⟨rest, found, isPrefix⟩ := exists_module back blank nonempty spelled
  obtain ⟨c, others, rfl⟩ := List.exists_cons_of_ne_nil nonempty
  refine ⟨c :: others ++ rest, ?_, not_inAllowlist_append notAllowed (ends.of_prefix isPrefix)⟩
  rw [lineModule, if_pos begins, named]
  dsimp only
  rw [found]
  rfl

/-- An import that begins its line is found by the allowlist. -/
theorem tripped_of_firstOnLine {tokens : List Token} {mention : Mention}
    (cut : language.Cut tokens code.toList) (inside : mention.In tokens)
    (checked : level.hasAllowlist = true) (plain : FirstOnLine mention) :
    Tripped other code level := by
  obtain ⟨noLead, indented, ⟨blanks, gap, blank⟩, notAllowed⟩ := plain
  obtain ⟨after, split⟩ := inside.split
  rw [noLead, List.nil_append] at split
  obtain ⟨isName, notImport, notFrom⟩ := isIdentifier_iff.mp inside.head
  obtain ⟨nonempty, spelled⟩ := cut_name cut (by simp [split]) isName
  obtain ⟨trailing, source⟩ := cut.source
  have isWord : mention.keyword.spelling = "import".toList ∨
      mention.keyword.spelling = "from".toList :=
    inside.keyword.imp spelling_of_isWord spelling_of_isWord
  have whole : code.toList = sourceOf (mention.before ++ [mention.keyword] ++ [mention.head]) ++
      (sourceOf after ++ trailing) := by
    rw [source, split]
    simp
  have placed : tokens = (mention.before ++ [mention.keyword]) ++ mention.head :: after := by
    rw [split]
    simp
  have ends : NameEnds (sourceOf after ++ trailing) := fun c more starts =>
    cut_name_ends cut placed isName whole starts
  -- the words of the import stand on one line, and at its front
  have oneLine : '\n' ∉ mention.keyword.spelling ++ ' ' :: (blanks ++ mention.head.spelling) := by
    intro mem
    rcases List.mem_append.mp mem with mem | mem
    · rcases isWord with same | same <;> rw [same] at mem <;> exact absurd mem (by decide)
    rcases List.mem_append.mp ((List.mem_cons.mp mem).resolve_left (by decide)) with mem | mem
    · exact absurd (blank _ mem) (by decide)
    · exact absurd (spelled _ mem) (by decide)
  have first : ∃ c, (mention.keyword.spelling ++
      ' ' :: (blanks ++ mention.head.spelling)).head? = some c ∧ isWhitespace c = false := by
    rcases isWord with same | same <;> rw [same]
    · exact ⟨'i', rfl, by decide⟩
    · exact ⟨'f', rfl, by decide⟩
  have last : ∃ c, (mention.keyword.spelling ++
      ' ' :: (blanks ++ mention.head.spelling)).getLast? = some c ∧ isWhitespace c = false := by
    obtain ⟨front, c, same⟩ := (List.eq_nil_or_concat' mention.head.spelling).resolve_left nonempty
    refine ⟨c, ?_, isWhitespace_of_isNameChar (spelled c (by simp [same]))⟩
    rw [same, ← List.cons_append, ← List.append_assoc, ← List.append_assoc]
    exact List.getLast?_concat
  obtain ⟨line, mem, rest, trimmed, isPrefix⟩ :=
    exists_trimmed_line (sourceOf after ++ trailing) oneLine indented first last
  have same : sourceOf mention.before ++ mention.keyword.gap ++
      (mention.keyword.spelling ++ ' ' :: (blanks ++ mention.head.spelling) ++
        (sourceOf after ++ trailing)) = code.toList := by
    rw [whole]
    simp [Token.source, gap]
  rw [same] at mem
  have trimmed : trimChars line = mention.keyword.spelling ++
      ' ' :: (blanks ++ (mention.head.spelling ++ rest)) := by
    rw [trimmed]
    simp
  obtain ⟨module, imports, refused⟩ := lineModule_of_import isWord trimmed blank nonempty spelled
    (ends.of_prefix isPrefix) notImport notFrom notAllowed
  exact .allowlist line module checked mem imports refused

/-! ## Accepted code -/

/-- What is found in a spelling that is searched for is refused. -/
theorem hidden_of_accepted {normalize : List Char → List Char}
    (accepted : validateMcpCode other code level = .ok ())
    (unsound : ¬CodeSound normalize code level) : Hidden normalize code level := by
  have checked : level ≠ .unrestricted := by
    rintro rfl
    exact unsound fun tokens _ => ⟨fun _ _ => rfl, fun _ _ => rfl⟩
  have untripped := (validateMcpCode_eq_ok_iff.mp accepted).resolve_left checked
  simp only [CodeSound, not_forall] at unsound
  obtain ⟨tokens, tokenized, unsound⟩ := unsound
  have cut := tokenize_cut tokenized
  refine ⟨tokens, tokenized, ?_⟩
  rcases not_and_or.mp unsound with imports | called
  · left
    simp only [not_forall, Bool.not_eq_false] at imports
    obtain ⟨mention, mem, blocked⟩ := imports
    refine ⟨mention, mem, blocked, fun plain => untripped ?_⟩
    rcases plain with plain | ⟨hasAllowlist, plain⟩
    · exact tripped_of_oneBlank cut (importedModules_in mem) plain
    · exact tripped_of_firstOnLine cut (importedModules_in mem) hasAllowlist plain
  · right
    simp only [not_forall, Bool.not_eq_false] at called
    obtain ⟨call, mem, blocked⟩ := called
    exact ⟨call, mem, blocked, fun plain => untripped (tripped_of_call cut mem plain)⟩

theorem not_sound_of_hidden {normalize : List Char → List Char}
    (hidden : Hidden normalize code level) : ¬CodeSound normalize code level := by
  intro sound
  obtain ⟨tokens, tokenized, ⟨mention, mem, blocked, -⟩ | ⟨call, mem, blocked, -⟩⟩ := hidden
  · have free := (sound tokens tokenized).1 mention mem
    rw [blocked] at free
    cases free
  · have free := (sound tokens tokenized).2 call mem
    rw [blocked] at free
    cases free

/-- An accepted text imports and calls nothing blocked exactly if what is blocked and
spelled otherwise than the checks search for stands in texts only that one of them finds
something else in. -/
theorem accepted_sound_iff (other : List Char → Char → List Char → List Char)
    (normalize : List Char → List Char) (code : String) (level : CodeSafetyLevel) :
    (validateMcpCode other code level = .ok () → CodeSound normalize code level) ↔
      (Hidden normalize code level → Tripped other code level) := by
  constructor
  · intro sound hidden
    by_contra untripped
    have accepted := validateMcpCode_eq_ok_iff.mpr (.inr untripped)
    exact not_sound_of_hidden hidden (sound accepted)
  · intro tripped accepted
    by_contra unsound
    have hidden := hidden_of_accepted accepted unsound
    rcases validateMcpCode_eq_ok_iff.mp accepted with rfl | untripped
    · exact unsound fun tokens _ => ⟨fun _ _ => rfl, fun _ _ => rfl⟩
    · exact untripped (tripped hidden)

/-- A second module behind a comma, a blank before a bracket and, at the stricter levels,
a module behind an alias. -/
theorem accepted_not_sound :
    (validateMcpCode (fun _ c _ => [c]) "import os, subprocess" .standard = .ok () ∧
      ¬CodeSound id "import os, subprocess" .standard) ∧
    (validateMcpCode (fun _ c _ => [c]) "eval (x)" .readonly = .ok () ∧
      ¬CodeSound id "eval (x)" .readonly) ∧
    validateMcpCode (fun _ c _ => [c]) "import json as j, pickle" .strict = .ok () ∧
      ¬CodeSound id "import json as j, pickle" .strict := by
  decide +kernel

end ClotoCore.Mcp
