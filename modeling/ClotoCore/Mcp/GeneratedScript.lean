import ClotoCore.Mcp.CodeValidator
import ClotoCore.Python.Layout
import ClotoCore.Scanning.Replacement

/-!
# The script of a generated server

A description stands in the docstring of the script, with a backslash before each double
quote and none before a backslash.  Where it leaves the quotes of the template as they are,
the script is the docstring, the lines of the template and the code that was validated.
-/

namespace ClotoCore.Mcp.GeneratedScript

open ClotoCore.Encoding ClotoCore.Python ClotoCore.Scanning

/-! ## Generating a script -/

/-- `AppError`, as far as the handler answers it. -/
inductive AppError where
  | validation (message : String)
  | internal (message : String)
  deriving DecidableEq

/-- `validate_server_name` -/
def validateServerName (name : String) : Except AppError Unit :=
  if name = "" ∨ name.utf8ByteSize > 64 then
    .error (.validation "Server name must be 1-64 characters")
  else if name.toList.head? = some '.' ∨ name.toList.getLast? = some '.' ∨
      holds name.toList ".." = true ∨
      ¬(name.toList.all fun c => c.isAlphanum || c == '_' || c == '-' || c == '.') = true then
    .error (.validation <|
      "Server name must contain only alphanumeric characters, underscores, hyphens, and dots " ++
        "(no leading/trailing dot and no '..' sequence)")
  else .ok ()

/-- `MCP_SCRIPTS_DIR` -/
def mcpScriptsDir : String :=
  "data/mcp_scripts"

/-- `mcp_script_filename` -/
def mcpScriptFilename (name : String) : String :=
  "mcp_" ++ name ++ ".py"

/-- The machine that the kernel runs on: the directory of the scripts, where there is one,
by the names of its files, and what goes wrong on it. -/
structure Host where
  windows : Bool
  scripts : Option (String → Option String)
  /-- The error of `create_dir_all`. -/
  createFault : Option String
  /-- The error of `write`, and what it leaves of the file. -/
  writeFault : Option (String × Option String)

/-- The content of a script. -/
def Host.script (host : Host) (filename : String) : Option String :=
  host.scripts.bind fun files => files filename

/-- The quotes of the docstring. -/
def quotes : String :=
  "\"\"\""

/-- What stands in the docstring before the description. -/
def title (name : String) : String :=
  "MCP Server: " ++ name ++ " — "

/-- The docstring of the template. -/
def docstring (name description : String) : String :=
  quotes ++ title name ++
    String.ofList (replaceAll ['"'] ['\\', '"'] description.toList) ++ quotes

/-- The imports of the template. -/
def templateImports : String :=
  "from mcp.server import Server\nfrom mcp.server.stdio import stdio_server\n\n"

/-- What stands before the name in the line that makes the server. -/
def serverOpening : String :=
  "app = Server(\""

/-- What stands between the name and the code. -/
def serverClosing : String :=
  "\")\n\n"

/-- The lines of the template before the code. -/
def templateHead (name : String) : String :=
  templateImports ++ (serverOpening ++ name ++ serverClosing)

/-- The lines of the template behind the code. -/
def templateTail : String :=
  "async def main():\n    async with stdio_server() as (read, write):\n        await app.run(read, write)\n\nif __name__ == \"__main__\":\n    import asyncio\n    asyncio.run(main())\n"

/-- The script with its code between the two ends of the template. -/
def scriptText (name code description : String) : String :=
  docstring name description ++ "\n" ++ templateHead name ++ code ++ "\n\n" ++ templateTail

section

variable (other : List Char → Char → List Char → List Char)

/-- `generate_mcp_script` -/
def generateMcpScript (host : Host) (name code description : String) :
    Except AppError (String × List String × String) × Host :=
  match validateMcpCode other code .standard with
  | .error violations =>
      (.error (.validation ("Code validation failed: " ++ "; ".intercalate violations)), host)
  | .ok () =>
      let script := scriptText name code description
      match host.scripts, host.createFault with
      | none, some e =>
          (.error (.internal ("Failed to create " ++ mcpScriptsDir ++ " directory: " ++ e)), host)
      | scripts, _ =>
          let files := scripts.getD fun _ => none
          let filename := mcpScriptFilename name
          match host.writeFault with
          | some (e, left) =>
              (.error (.internal ("Failed to write MCP server script: " ++ e)),
                { host with scripts := some (Function.update files filename left) })
          | none =>
              (.ok (if host.windows then "python" else "python3",
                  [mcpScriptsDir ++ "/" ++ filename], script),
                { host with scripts := some (Function.update files filename (some script)) })

end

/-- A script that is generated is written. -/
theorem script_of_generated {other : List Char → Char → List Char → List Char} {host : Host}
    {name code description command script : String} {args : List String}
    (generated : (generateMcpScript other host name code description).1 =
      .ok (command, args, script)) :
    (generateMcpScript other host name code description).2.script (mcpScriptFilename name) =
      some (scriptText name code description) := by
  unfold generateMcpScript at generated ⊢
  split at generated
  case h_1 => cases generated
  case h_2 =>
    dsimp only at generated ⊢
    split at generated
    case h_1 => cases generated
    case h_2 =>
      split at generated
      case h_1 => cases generated
      case h_2 => simp [Host.script]

/-- A code that is accepted gives a script, if nothing goes wrong on the machine. -/
theorem generated_of_valid {other : List Char → Char → List Char → List Char} {host : Host}
    {code : String} (valid : validateMcpCode other code .standard = .ok ())
    (creates : host.createFault = none) (writes : host.writeFault = none)
    (name description : String) :
    (generateMcpScript other host name code description).1 =
      .ok (if host.windows then "python" else "python3",
        [mcpScriptsDir ++ "/" ++ mcpScriptFilename name], scriptText name code description) := by
  simp [generateMcpScript, valid, creates, writes]

/-! ## What the script is to be -/

/-- A file is one docstring, which the quotes of the template end, and then the lines of the
template around those of the code. -/
def RunsValidated (isIdentifier : List Char → Bool) (name code description file : String) : Prop :=
  ∃ head body tail, lex isIdentifier (templateHead name).toList = some head ∧
    lex isIdentifier code.toList = some body ∧
    lex isIdentifier templateTail.toList = some tail ∧
    lex isIdentifier file.toList =
      some (.word ⟨.string, (docstring name description).toList⟩ :: .newline ::
        (head ++ body ++ tail))

/-- The number of backslashes that a text ends with. -/
def backslashes (text : List Char) : Nat :=
  (text.reverse.takeWhile (· == '\\')).length

/-- A description that ends in an even number of backslashes, apart from a double quote at
its end. -/
def PlainEnd (description : List Char) : Prop :=
  backslashes (if description.getLast? = some '"' then description.dropLast else description) % 2 = 0

instance : DecidablePred PlainEnd := fun _ =>
  inferInstanceAs (Decidable (_ = _))

/-! ## The end of the docstring -/

/-- What the quotes of a description and a backslash before its end do: the number of quotes
in a row, and whether a backslash covers what comes next. -/
def escapedStep (state : Nat × Bool) (c : Char) : Nat × Bool :=
  if c = '"' then (if state.2 then 1 else 0, false)
  else if c = '\\' then (0, !state.2)
  else (0, false)

/-- A description in a string of the template. -/
theorem read_escaped (text spelling : List Char) (state : Nat × Bool) :
    (replaceAll ['"'] ['\\', '"'] text).foldlM step
        ⟨[], [], ⟨0, .within (.long '"' state.1 state.2) spelling⟩⟩ =
      some ⟨[], [], ⟨0, .within
        (.long '"' (text.foldl escapedStep state).1 (text.foldl escapedStep state).2)
        (spelling ++ replaceAll ['"'] ['\\', '"'] text)⟩⟩ := by
  induction text generalizing spelling state with
  | nil => simp
  | cons c text ih =>
      rw [replaceAll_singleton, List.foldlM_append, List.foldl_cons]
      have first : (if c = '"' then ['\\', '"'] else [c]).foldlM step
          ⟨[], [], ⟨0, .within (.long '"' state.1 state.2) spelling⟩⟩ =
          some ⟨[], [], ⟨0, .within
            (.long '"' (escapedStep state c).1 (escapedStep state c).2)
            (spelling ++ if c = '"' then ['\\', '"'] else [c])⟩⟩ := by
        obtain ⟨run, escaped⟩ := state
        by_cases quote : c = '"'
        · subst quote
          cases escaped <;> simp [step, inside, keep, Scan.keep, escapedStep]
        · cases escaped <;> by_cases slash : c = '\\' <;>
            simp [step, inside, keep, Scan.keep, escapedStep, quote, slash]
      rw [first, Option.bind_eq_bind, Option.bind_some, ih]
      simp

theorem backslashes_concat (text : List Char) (c : Char) :
    backslashes (text ++ [c]) = if c = '\\' then backslashes text + 1 else 0 := by
  by_cases slash : c = '\\' <;> simp [backslashes, slash]

/-- A backslash covers what stands behind an odd number of backslashes. -/
theorem covered_iff (text : List Char) :
    (text.foldl escapedStep (0, false)).2 = true ↔ backslashes text % 2 = 1 := by
  induction text using List.reverseRecOn with
  | nil => simp [backslashes]
  | append_singleton text c ih =>
      rw [List.foldl_concat, backslashes_concat, escapedStep]
      by_cases slash : c = '\\'
      · simp only [slash, Char.reduceEq, if_false, if_true, Bool.not_eq_true']
        rw [← Bool.not_eq_true, ih]
        omega
      · by_cases quote : c = '"' <;> simp [quote, slash]

theorem foldl_escapedStep_cases (text : List Char) :
    text.foldl escapedStep (0, false) = (0, false) ∨ text.foldl escapedStep (0, false) = (0, true) ∨
      text.foldl escapedStep (0, false) = (1, false) := by
  induction text using List.reverseRecOn with
  | nil => exact .inl rfl
  | append_singleton text c =>
      rw [List.foldl_concat, escapedStep]
      split_ifs <;> simp

/-- The quotes behind a description are what they are in the template exactly if it ends
in an even number of backslashes. -/
theorem foldl_escapedStep_iff (text : List Char) :
    text.foldl escapedStep (0, false) = (0, false) ↔ PlainEnd text := by
  induction text using List.reverseRecOn with
  | nil => simp [PlainEnd, backslashes]
  | append_singleton text c =>
      have covered := covered_iff text
      rw [List.foldl_concat, escapedStep, PlainEnd, List.getLast?_concat, List.dropLast_concat]
      by_cases quote : c = '"'
      · simp only [quote, if_true, Prod.mk.injEq, and_true, ite_eq_right_iff,
          Nat.one_ne_zero, imp_false, covered]
        omega
      · simp only [quote, if_false, Option.some.injEq, backslashes_concat]
        by_cases slash : c = '\\'
        · simp only [slash, if_true, Prod.mk.injEq, true_and, Bool.not_eq_false', covered]
          omega
        · simp [slash]

/-! ## Names -/

/-- A character of a server name. -/
def ServerNameChar (c : Char) : Prop :=
  c.isAlphanum = true ∨ c = '_' ∨ c = '-' ∨ c = '.'

instance : DecidablePred ServerNameChar := fun c =>
  inferInstanceAs (Decidable (c.isAlphanum = true ∨ c = '_' ∨ c = '-' ∨ c = '.'))

theorem ServerNameChar.ne {c d : Char} (isName : ServerNameChar c)
    (special : ¬ServerNameChar d) : c ≠ d := by
  rintro rfl
  exact special isName

theorem of_validateServerName {name : String} (accepted : validateServerName name = .ok ()) :
    name ≠ "" ∧ ∀ c ∈ name.toList, ServerNameChar c := by
  unfold validateServerName at accepted
  split at accepted
  · cases accepted
  case isFalse sized =>
    split at accepted
    · cases accepted
    case isFalse plain =>
      simp only [not_or, not_not, List.all_eq_true, Bool.or_eq_true, beq_iff_eq, or_assoc]
        at sized plain
      exact ⟨sized.1, plain.2.2.2⟩

/-! ## The lines of the template -/

section

variable {name : String}

theorem quotes_toList : quotes.toList = ['"', '"', '"'] := by
  decide

theorem title_plain (plain : ∀ c ∈ name.toList, ServerNameChar c) :
    ∀ c ∈ (title name).toList, c ≠ '"' ∧ c ≠ '\\' := by
  have before : ∀ c ∈ "MCP Server: ".toList, c ≠ '"' ∧ c ≠ '\\' := forall_mem_of_all (by decide)
  have within : ∀ c ∈ name.toList, c ≠ '"' ∧ c ≠ '\\' := fun c mem =>
    ⟨(plain c mem).ne (by decide), (plain c mem).ne (by decide)⟩
  have after : ∀ c ∈ " — ".toList, c ≠ '"' ∧ c ≠ '\\' := forall_mem_of_all (by decide)
  rw [title, String.toList_append, String.toList_append]
  exact List.forall_mem_append.mpr ⟨List.forall_mem_append.mpr ⟨before, within⟩, after⟩

/-- A text without double quotes stays, and without backslashes it covers nothing. -/
theorem plain_escaped {text : List Char} (plain : ∀ c ∈ text, c ≠ '"' ∧ c ≠ '\\')
    (rest : List Char) :
    replaceAll ['"'] ['\\', '"'] (text ++ rest) =
        text ++ replaceAll ['"'] ['\\', '"'] rest ∧
      (text ++ rest).foldl escapedStep (0, false) = rest.foldl escapedStep (0, false) := by
  induction text with
  | nil => exact ⟨rfl, rfl⟩
  | cons c text ih =>
      obtain ⟨notQuote, notSlash⟩ := plain c (List.mem_cons_self ..)
      obtain ⟨kept, covered⟩ := ih fun d mem => plain d (List.mem_cons_of_mem _ mem)
      refine ⟨?_, ?_⟩
      · rw [List.cons_append, replaceAll_singleton, if_neg notQuote, kept]
        rfl
      · rw [List.cons_append, List.foldl_cons, escapedStep, if_neg notQuote, if_neg notSlash,
          covered]

/-- The docstring up to the quotes that end it. -/
def openDocstring (name description : String) : List Char :=
  quotes.toList ++ replaceAll ['"'] ['\\', '"'] ((title name).toList ++ description.toList)

theorem docstring_toList (plain : ∀ c ∈ name.toList, ServerNameChar c) (description : String) :
    (docstring name description).toList = openDocstring name description ++ quotes.toList := by
  rw [openDocstring, (plain_escaped (title_plain plain) description.toList).1]
  simp only [docstring, String.toList_append, String.toList_ofList, List.append_assoc]

/-- What is read at the quotes of the template. -/
theorem read_openDocstring (plain : ∀ c ∈ name.toList, ServerNameChar c) (description : String) :
    (openDocstring name description).foldlM step (start []) =
      some ⟨[], [], ⟨0, .within (.long '"'
        (description.toList.foldl escapedStep (0, false)).1
        (description.toList.foldl escapedStep (0, false)).2)
          (openDocstring name description)⟩⟩ := by
  have opened : quotes.toList.foldlM step (start []) =
      some ⟨[], [], ⟨0, .within (.long '"' (0, false).1 (0, false).2) quotes.toList⟩⟩ := by
    rw [quotes_toList]
    rfl
  rw [openDocstring, List.foldlM_append, opened, Option.bind_eq_bind, Option.bind_some,
    read_escaped, (plain_escaped (title_plain plain) _).2]

/-- The docstring, if the description leaves the quotes of the template as they are. -/
theorem docstring_lays (isIdentifier : List Char → Bool)
    (plain : ∀ c ∈ name.toList, ServerNameChar c) {description : String}
    (plainEnd : PlainEnd description.toList) :
    Lays isIdentifier ((docstring name description).toList ++ ['\n']) Layout.empty
      ⟨[.word ⟨.string, (docstring name description).toList⟩, .newline], [], [], []⟩ := by
  refine Lays.string ?_
  rw [Cuts, docstring_toList plain, List.append_assoc, List.foldlM_append,
    read_openDocstring plain, (foldl_escapedStep_iff _).mpr plainEnd, quotes_toList]
  simp [step, inside, keep, Scan.keep, close, Scan.close, next, isNameChar, isBlank, isLineEnd]

/-- A text in quotes that holds no quote, backslash or line end. -/
theorem read_short {text : List Char} (plain : ∀ c ∈ text, ServerNameChar c)
    (tokens : List Token) (spelling : List Char) :
    text.foldlM step ⟨tokens, [], ⟨1, .within (.short '"' .off) spelling⟩⟩ =
      some ⟨tokens, [], ⟨1, .within (.short '"' .off) (spelling ++ text)⟩⟩ := by
  induction text generalizing spelling with
  | nil => simp
  | cons c text ih =>
      have isName := plain c (List.mem_cons_self ..)
      have notQuote : c ≠ '"' := isName.ne (by decide)
      have notSlash : c ≠ '\\' := isName.ne (by decide)
      have notLineEnd : isLineEnd c = false := by
        simp [isLineEnd, isName.ne (show ¬ServerNameChar '\n' by decide),
          isName.ne (show ¬ServerNameChar '\r' by decide)]
      have stepped : step ⟨tokens, [], ⟨1, .within (.short '"' .off) spelling⟩⟩ c =
          some ⟨tokens, [], ⟨1, .within (.short '"' .off) (spelling ++ [c])⟩⟩ := by
        simp [step, inside, shortText, notQuote, notSlash, notLineEnd, keep, Scan.keep]
      rw [List.foldlM_cons, stepped, Option.bind_eq_bind, Option.bind_some,
        ih fun d mem => plain d (List.mem_cons_of_mem _ mem)]
      simp

/-- The tokens of the line that makes the server. -/
def serverTokens (name : List Char) : List Token :=
  [⟨.name, [], "app".toList⟩, ⟨.sign, [' '], ['=']⟩, ⟨.name, [' '], "Server".toList⟩,
    ⟨.sign, [], ['(']⟩, ⟨.literal, [], ['"'] ++ name ++ ['"']⟩, ⟨.sign, [], [')']⟩,
    ⟨.lineEnd, [], ['\n']⟩, ⟨.lineEnd, [], ['\n']⟩]

theorem serverLine_cuts (nonempty : name ≠ "") (plain : ∀ c ∈ name.toList, ServerNameChar c) :
    Cuts (serverOpening ++ name ++ serverClosing).toList (serverTokens name.toList) := by
  have opened : serverOpening.toList.foldlM step (start []) =
      some ⟨(serverTokens []).take 4, [], ⟨1, .within (.quote '"') ['"']⟩⟩ := by
    decide
  have closing : serverClosing.toList = ['"', ')', '\n', '\n'] := by
    decide
  rw [Cuts, String.toList_append, String.toList_append, closing, List.foldlM_append,
    List.foldlM_append, opened, Option.bind_eq_bind, Option.bind_some]
  cases spelled : name.toList with
  | nil => exact absurd (String.toList_eq_nil_iff.mp spelled) nonempty
  | cons c rest =>
      rw [spelled] at plain
      have isName := plain c (List.mem_cons_self ..)
      have short := read_short plain ((serverTokens []).take 4) ['"']
      rw [List.foldlM_cons] at short
      have same : step ⟨(serverTokens []).take 4, [], ⟨1, .within (.quote '"') ['"']⟩⟩ c =
          step ⟨(serverTokens []).take 4, [], ⟨1, .within (.short '"' .off) ['"']⟩⟩ c := by
        simp only [step, inside, if_neg (isName.ne (show ¬ServerNameChar '"' by decide))]
        rfl
      rw [List.foldlM_cons, same, short]
      rfl

theorem serverLine_lays (isIdentifier : List Char → Bool) (nonempty : name ≠ "")
    (plain : ∀ c ∈ name.toList, ServerNameChar c) :
    ∃ lexemes, Lays isIdentifier (serverOpening ++ name ++ serverClosing).toList Layout.empty
      ⟨lexemes, [], [], []⟩ :=
  ⟨_, lays_iff.mpr ⟨_, serverLine_cuts nonempty plain, rfl⟩⟩

theorem imports_eval :
    ((layOut (fun _ => false) templateImports.toList Layout.empty).any fun after =>
      after = ⟨after.lexemes, [], [], []⟩) = true ∧ '\x00' ∉ templateImports.toList := by
  have spelled : templateImports.toList = _ := String.toList_ofList
  rw [spelled]
  decide +kernel

set_option maxRecDepth 4000 in
theorem tail_eval :
    ((layOut (fun _ => false) templateTail.toList Layout.empty).any fun after =>
      after = ⟨after.lexemes, after.blocks, [], []⟩) = true ∧
      beginsAtMargin templateTail.toList = true ∧ '\x00' ∉ templateTail.toList ∧
      templateTail.toList.getLast?.any isLineEnd = true := by
  have spelled : templateTail.toList = _ := String.toList_ofList
  rw [spelled]
  decide +kernel

/-- The lines of the template are read without an error. -/
theorem imports_lays (isIdentifier : List Char → Bool) :
    ∃ lexemes, Lays isIdentifier templateImports.toList Layout.empty ⟨lexemes, [], [], []⟩ := by
  obtain ⟨after, lays, between⟩ := (Option.any_eq_true _ _).mp imports_eval.1
  rw [decide_eq_true_eq.mp between] at lays
  exact ⟨_, Lays.more lays nofun⟩

theorem tail_lays (isIdentifier : List Char → Bool) :
    ∃ lexemes blocks,
      Lays isIdentifier templateTail.toList Layout.empty ⟨lexemes, blocks, [], []⟩ := by
  obtain ⟨after, lays, between⟩ := (Option.any_eq_true _ _).mp tail_eval.1
  rw [decide_eq_true_eq.mp between] at lays
  exact ⟨_, _, Lays.more lays nofun⟩

theorem head_lays (isIdentifier : List Char → Bool) (nonempty : name ≠ "")
    (plain : ∀ c ∈ name.toList, ServerNameChar c) :
    ∃ lexemes, Lays isIdentifier (templateHead name).toList Layout.empty
      ⟨lexemes, [], [], []⟩ := by
  obtain ⟨imports, importsLaid⟩ := imports_lays isIdentifier
  obtain ⟨server, serverLaid⟩ := serverLine_lays isIdentifier nonempty plain
  have laid := importsLaid.append (serverLaid.next imports)
  rw [← String.toList_append] at laid
  exact ⟨_, laid⟩

/-! ## Null characters -/

theorem null_mem_escaped_iff (text : List Char) :
    '\x00' ∈ replaceAll ['"'] ['\\', '"'] text ↔ '\x00' ∈ text := by
  induction text with
  | nil => rfl
  | cons c text ih =>
      rw [replaceAll_singleton, List.mem_append, ih, List.mem_cons]
      by_cases quote : c = '"'
      · simp [quote]
      · simp [quote]

theorem null_not_mem_template : '\x00' ∉ serverOpening.toList ∧ '\x00' ∉ serverClosing.toList ∧
    '\x00' ∉ quotes.toList := by
  decide +kernel

theorem null_not_mem_head (plain : ∀ c ∈ name.toList, ServerNameChar c) :
    '\x00' ∉ (templateHead name).toList := by
  have template := null_not_mem_template
  have notName : '\x00' ∉ name.toList := fun mem => absurd (plain _ mem) (by decide)
  simp [templateHead, imports_eval.2, template, notName]

theorem null_mem_docstring_iff (plain : ∀ c ∈ name.toList, ServerNameChar c)
    (description : String) :
    '\x00' ∈ (docstring name description).toList ↔ '\x00' ∈ description.toList := by
  have template := null_not_mem_template
  have notTitle : '\x00' ∉ (title name).toList := by
    have before : '\x00' ∉ "MCP Server: ".toList := by decide
    have after : '\x00' ∉ " — ".toList := by decide
    have notName : '\x00' ∉ name.toList := fun mem => absurd (plain _ mem) (by decide)
    simp only [title, String.toList_append, List.mem_append, before, after, notName, or_self,
      not_false_eq_true]
  simp [docstring, template, notTitle, null_mem_escaped_iff]

/-! ## The script -/

theorem scriptText_toList (name code description : String) :
    (scriptText name code description).toList =
      (docstring name description).toList ++ ['\n'] ++ (templateHead name).toList ++
        (code.toList ++ ['\n', '\n']) ++ templateTail.toList := by
  have lineEnd : "\n".toList = ['\n'] := by decide
  have lineEnds : "\n\n".toList = ['\n', '\n'] := by decide
  simp only [scriptText, String.toList_append, lineEnd, lineEnds, List.append_assoc]

variable {isIdentifier : List Char → Bool} {code description : String}

theorem lex_head {lexemes : List Lexeme} (plain : ∀ c ∈ name.toList, ServerNameChar c)
    (laid : Lays isIdentifier (templateHead name).toList Layout.empty ⟨lexemes, [], [], []⟩) :
    lex isIdentifier (templateHead name).toList = some lexemes := by
  have ends : ended (templateHead name).toList = (templateHead name).toList := by
    rw [templateHead, String.toList_append, String.toList_append, ← List.append_assoc]
    exact ended_of_lineEnd (by decide)
  simpa using lex_of_lays (null_not_mem_head plain) ends laid

theorem ended_tail (text : List Char) :
    ended (text ++ templateTail.toList) = text ++ templateTail.toList :=
  ended_of_lineEnd tail_eval.2.2.2

/-- A description that leaves the quotes of the template as they are changes nothing. -/
theorem runsValidated_of_plainEnd (nonempty : name ≠ "")
    (plain : ∀ c ∈ name.toList, ServerNameChar c) (plainEnd : PlainEnd description.toList)
    (clean : '\x00' ∉ description.toList) {body : List Lexeme}
    (lexed : lex isIdentifier code.toList = some body) :
    RunsValidated isIdentifier name code description (scriptText name code description) := by
  obtain ⟨head, headLaid⟩ := head_lays isIdentifier nonempty plain
  obtain ⟨tail, tailBlocks, tailLaid⟩ := tail_lays isIdentifier
  obtain ⟨codeClean, lexemes, blocks, codeLaid, rfl⟩ := lex_eq_some_iff.mp lexed
  have docstringLaid := docstring_lays isIdentifier plain plainEnd
  have linesLaid := codeLaid.emptyLines rfl
  have laid := ((docstringLaid.append (headLaid.next _)).append (linesLaid.next _)).append
    (tailLaid.atMargin tail_eval.2.1 _ _)
  rw [← scriptText_toList] at laid
  have ends : ended (scriptText name code description).toList =
      (scriptText name code description).toList := by
    rw [scriptText_toList]
    exact ended_tail _
  have null : '\x00' ∉ (scriptText name code description).toList := by
    rw [scriptText_toList]
    simp [null_mem_docstring_iff plain, clean, null_not_mem_head plain, codeClean,
      tail_eval.2.2.1]
  have tailEnds := ended_tail []
  rw [List.nil_append] at tailEnds
  have scriptLexed := lex_of_lays null ends laid
  refine ⟨head, _, _, lex_head plain headLaid, lexed,
    lex_of_lays tail_eval.2.2.1 tailEnds tailLaid, ?_⟩
  rw [scriptLexed]
  simp

/-- The first word of a script is its docstring only if the description leaves the quotes
of the template as they are. -/
theorem plainEnd_of_lex (plain : ∀ c ∈ name.toList, ServerNameChar c) {others : List Lexeme}
    (lexed : lex isIdentifier (scriptText name code description).toList =
      some (.word ⟨.string, (docstring name description).toList⟩ :: others)) :
    PlainEnd description.toList := by
  have whole := scriptText_toList name code description
  have opened := read_openDocstring plain description
  have quoted := docstring_toList plain description
  rw [quotes_toList] at quoted
  rcases foldl_escapedStep_cases description.toList with ended | covered | early
  · exact (foldl_escapedStep_iff _).mp ended
  · -- The first of the quotes is escaped, and the string goes on behind the line.
    rw [covered] at opened
    have goesOn : ((docstring name description).toList ++ ['\n']).foldlM step (start []) =
        some ⟨[], [], ⟨0, .within (.long '"' 0 false)
          ((docstring name description).toList ++ ['\n'])⟩⟩ := by
      rw [quoted, List.append_assoc, List.foldlM_append, opened]
      simp [step, inside, keep, Scan.keep]
    rw [whole, List.append_assoc, List.append_assoc] at lexed
    obtain ⟨spelling, _, same, longer⟩ := head_of_open goesOn lexed
    simp only [List.cons.injEq, Lexeme.word.injEq, Word.mk.injEq, true_and] at same
    have length := longer.length_le
    rw [← same.1, List.length_append, List.length_singleton] at length
    omega
  · -- The string ends before the last of the quotes, which opens one that the line cuts.
    rw [early] at opened
    have cut : ((docstring name description).toList ++ ['\n']).foldlM step (start []) = none := by
      rw [quoted, List.append_assoc, List.foldlM_append, opened]
      simp [step, inside, keep, Scan.keep, close, Scan.close, next, isNameChar, shortText,
        isLineEnd]
    obtain ⟨-, _, _, laid, -⟩ := lex_eq_some_iff.mp lexed
    obtain ⟨tokens, cuts, -⟩ := lays_iff.mp laid
    obtain ⟨ends, endedText⟩ := ended_eq (scriptText name code description).toList
    rw [Cuts, endedText, whole] at cuts
    simp only [List.append_assoc] at cuts
    rw [← List.append_assoc, List.foldlM_append, cut] at cuts
    cases cuts

end

/-- The file of a generated server holds the docstring, the template and the validated code,
and nothing else, exactly if the description leaves the quotes of the template as they are,
no null character stands in it, and the code has lexemes of its own. -/
theorem generated_runsValidated_iff (other : List Char → Char → List Char → List Char)
    (isIdentifier : List Char → Bool) (host : Host)
    {name code description command script : String} {args : List String}
    (accepted : validateServerName name = .ok ())
    (generated : (generateMcpScript other host name code description).1 =
      .ok (command, args, script)) :
    (∃ file, (generateMcpScript other host name code description).2.script
          (mcpScriptFilename name) = some file ∧
        RunsValidated isIdentifier name code description file) ↔
      PlainEnd description.toList ∧ '\x00' ∉ description.toList ∧
        (lex isIdentifier code.toList).isSome = true := by
  obtain ⟨nonempty, plain⟩ := of_validateServerName accepted
  rw [script_of_generated generated]
  constructor
  · rintro ⟨file, written, head, body, tail, -, codeLexed, -, lexed⟩
    cases Option.some.inj written
    refine ⟨plainEnd_of_lex plain lexed, fun null => ?_, by rw [codeLexed]; rfl⟩
    refine (lex_eq_some_iff.mp lexed).1 ?_
    rw [scriptText_toList]
    simp [(null_mem_docstring_iff plain description).mpr null]
  · rintro ⟨plainEnd, clean, lexed⟩
    obtain ⟨body, codeLexed⟩ := Option.isSome_iff_exists.mp lexed
    exact ⟨_, rfl, runsValidated_of_plainEnd nonempty plain plainEnd clean codeLexed⟩

/-- A machine without a directory of scripts, on which nothing goes wrong. -/
def linux : Host :=
  ⟨false, none, none, none⟩

/-- A description with quotes, and one line of code. -/
theorem quotes_runsValidated :
    ∃ file, (generateMcpScript (fun _ c _ => [c]) linux "clock" "x = 1" "Says \"now\"").2.script
        (mcpScriptFilename "clock") = some file ∧
      RunsValidated (fun _ => false) "clock" "x = 1" "Says \"now\"" file :=
  (generated_runsValidated_iff (fun _ c _ => [c]) (fun _ => false) linux (by decide +kernel)
    (generated_of_valid (by decide +kernel) rfl rfl "clock" "Says \"now\"")).mpr
    ⟨by decide +kernel, by decide +kernel, by decide +kernel⟩

/-- A string with a call in it. -/
def callInString : String :=
  "x = \"\"\"\nprint(1) #\"\"\"\n"

/-- A name that stands among lexemes. -/
def holdsName (name : String) (lexemes : List Lexeme) : Bool :=
  lexemes.contains (.word ⟨.name, name.toList⟩)

set_option maxRecDepth 4000 in
/-- A backslash covers the first of the quotes, so that the string of the code ends the
docstring and the call in it is made. -/
theorem backslash_makes_call :
    validateServerName "clock" = .ok () ∧
      (generateMcpScript (fun _ c _ => [c]) linux "clock" callInString "\\").1 =
        .ok ("python3", [mcpScriptsDir ++ "/" ++ mcpScriptFilename "clock"],
          scriptText "clock" callInString "\\") ∧
      ((lex (fun _ => false) callInString.toList).any fun lexemes =>
        !holdsName "print" lexemes) = true ∧
      ((lex (fun _ => false) (scriptText "clock" callInString "\\").toList).any
        (holdsName "print")) = true ∧
      ¬∃ file, (generateMcpScript (fun _ c _ => [c]) linux "clock" callInString "\\").2.script
          (mcpScriptFilename "clock") = some file ∧
        RunsValidated (fun _ => false) "clock" callInString "\\" file := by
  have accepted : validateServerName "clock" = .ok () := by decide +kernel
  have valid : validateMcpCode (fun _ c _ => [c]) callInString .standard = .ok () := by
    decide +kernel
  obtain ⟨-, plain⟩ := of_validateServerName accepted
  have generated : (generateMcpScript (fun _ c _ => [c]) linux "clock" callInString "\\").1 =
      .ok ("python3", [mcpScriptsDir ++ "/" ++ mcpScriptFilename "clock"],
        scriptText "clock" callInString "\\") :=
    generated_of_valid valid rfl rfl "clock" "\\"
  refine ⟨accepted, generated, by decide +kernel, ?_, ?_⟩
  · have imports : templateImports.toList = _ := String.toList_ofList
    have tail : templateTail.toList = _ := String.toList_ofList
    rw [scriptText_toList, docstring_toList plain, templateHead, String.toList_append, imports,
      tail]
    decide +kernel
  · rintro ⟨file, written, head, body, tail, -, -, -, lexed⟩
    rw [script_of_generated generated] at written
    cases Option.some.inj written
    have covered : ¬PlainEnd "\\".toList := by decide +kernel
    exact covered (plainEnd_of_lex plain lexed)

end ClotoCore.Mcp.GeneratedScript
