import ClotoCore.Encoding.Dotenv

/-!
# The file of the admin key

The admin key is kept as a line of a file of environment variables, which the next boot
loads.  A new key is written by lines: one that begins with the name and an equals sign is
replaced, and every other line is kept.
-/

namespace ClotoCore.Access.KeyFile

open ClotoCore.Encoding ClotoCore.Encoding.Dotenv

/-! ## Writing the key -/

/-- The variable of the key. -/
def keyName : List Char :=
  "CLOTO_API_KEY".toList

theorem keyName_eq :
    keyName = ['C', 'L', 'O', 'T', 'O', '_', 'A', 'P', 'I', '_', 'K', 'E', 'Y'] :=
  String.toList_ofList

/-- `generate` -/
def generate (random : Bytes) : List Char :=
  hexChars random

/-- The line that is written for a key. -/
def keyLine (key : List Char) : List Char :=
  keyName ++ '=' :: key

/-- A line that sets the key, as the two functions look for it. -/
def isKeyLine (line : List Char) : Bool :=
  (keyName ++ ['=']).isPrefixOf (line.dropWhile isWhitespace)

/-- `str::lines`: a carriage return is dropped only in front of a line feed. -/
def strLines (text : List Char) : List (List Char) :=
  let pieces := text.splitOn '\n'
  pieces.dropLast.map stripReturn ++ (pieces.getLast?.filter (!·.isEmpty)).toList

/-- The lines of the new file. -/
def outLines (existing key : List Char) : List (List Char) :=
  let lines := strLines existing
  let out := lines.map fun line => if isKeyLine line then keyLine key else line
  if lines.any isKeyLine then out else out ++ [keyLine key]

/-- The first line of a new file. -/
def header : List Char :=
  "# ClotoCore admin API key (auto-generated; managed by the app)".toList

theorem header_eq :
    header =
      ['#', ' ', 'C', 'l', 'o', 't', 'o', 'C', 'o', 'r', 'e', ' ', 'a', 'd', 'm', 'i', 'n', ' ',
        'A', 'P', 'I', ' ', 'k', 'e', 'y', ' ', '(', 'a', 'u', 't', 'o', '-', 'g', 'e', 'n', 'e',
        'r', 'a', 't', 'e', 'd', ';', ' ', 'm', 'a', 'n', 'a', 'g', 'e', 'd', ' ', 'b', 'y', ' ',
        't', 'h', 'e', ' ', 'a', 'p', 'p', ')'] :=
  String.toList_ofList

/-- The new text of the file. -/
def content (existing : Option (List Char)) (key : List Char) : List Char :=
  match existing with
  | some existing => ['\n'].intercalate (outLines existing key) ++ ['\n']
  | none => header ++ '\n' :: keyLine key ++ ['\n']

/-- The file and the temporary one beside it. -/
structure Files where
  env : Option (List Char)
  tmp : Option (List Char)

/-- The calls that fail; a write that fails may have written a part. -/
structure Faults where
  read : Bool
  createDir : Bool
  write : Option (List Char)
  permissions : Bool
  rename : Bool

/-- `persist_key`: the files behind it, and whether it succeeded. -/
def persistKey (faults : Faults) (files : Files) (key : List Char) : Files × Bool :=
  if files.env.isSome && faults.read then (files, false)
  else if faults.createDir then (files, false)
  else
    match faults.write with
    | some part => ({ files with tmp := some part }, false)
    | none =>
        let written := content files.env key
        if faults.permissions || faults.rename then ({ files with tmp := some written }, false)
        else ({ env := some written, tmp := none }, true)

/-! ## What is promised -/

variable (value : List Char → Option (List Char))

/-- What a loader reads of the file for a name. -/
def Files.loads (files : Files) (name : List Char) : Option (List Char) :=
  load value (files.env.getD []) name

/-- A key is persisted: the next boot reads it, and the old values of the other names. -/
structure Persisted (files : Files) (key : List Char) (after : Files × Bool) : Prop where
  key : after.2 = true → after.1.loads value keyName = some key
  others : after.2 = true → ∀ name, name ≠ keyName → after.1.loads value name
    = files.loads value name
  failed : after.2 = false → after.1.env = files.env

/-! ## Which files are edited well -/

/-- A statement is one line that begins with the name and an equals sign. -/
def isKeyStatement : Statement → Bool
  | [line] => isKeyLine line
  | _ => false

/-- No line of a statement ends in a carriage return, but for one at the statement's end. -/
structure Settled (statement : Statement) : Prop where
  inner : ∀ line ∈ statement.dropLast, line.getLast? ≠ some '\r'
  last : ∀ line ∈ statement.getLast?, (stripReturn line).getLast? ≠ some '\r'

/-- The lines that are replaced are statements, and the statements that are kept have no
carriage returns within. -/
structure Aligned (text : List Char) : Prop where
  alone : ∀ statement ∈ statementsOf text, ∀ line ∈ statement, isKeyLine line = true →
    statement = [line]
  settled : ∀ statement ∈ statementsOf text, isKeyStatement statement = false →
    Settled statement

/-- A statement that decides what is read for the key. -/
def decidesKey (statement : Statement) : Bool :=
  isKeyStatement statement ||
    match read value statement with
    | .malformed => true
    | .defines name _ => name == keyName
    | .nothing => false

/-- The first statement that is malformed or defines the key is one that is replaced, or it
gives the new key already. -/
def KeyFirst (text key : List Char) : Prop :=
  ∀ statement, (statementsOf text).find? (decidesKey value) = some statement →
    isKeyStatement statement = true ∨ read value statement = .defines keyName key

/-- The other names have their values without the lines that are replaced. -/
def Independent (text : List Char) : Prop :=
  ∀ name, name ≠ keyName →
    (definitions (((statementsOf text).filter (!isKeyStatement ·)).map (read value))).lookup name
      = load value text name

/-- A file into which a new key can be written. -/
structure Durable (text key : List Char) : Prop where
  aligned : Aligned text
  keyFirst : KeyFirst value text key
  independent : Independent value text

/-! ## Lines -/

variable {text key : List Char}

theorem isKeyLine_append_return (line : List Char) :
    isKeyLine (line ++ ['\r']) = isKeyLine line := by
  unfold isKeyLine
  generalize part : keyName ++ ['='] = marker
  have plain : '\r' ∉ marker := by
    rw [← part]
    decide +kernel
  have nonempty : marker ≠ [] := by
    rw [← part]
    simp
  have space : isWhitespace '\r' = true := rfl
  rw [List.dropWhile_append]
  split
  · next blank =>
    rw [List.isEmpty_iff.mp blank, List.dropWhile_cons, if_pos space, List.dropWhile_nil]
  · rw [Bool.eq_iff_iff, List.isPrefixOf_iff_prefix, List.isPrefixOf_iff_prefix]
    constructor
    · intro starts
      rcases List.prefix_concat_iff.mp (by simpa using starts) with whole | inside
      · exact absurd (whole ▸ List.mem_append_right _ List.mem_cons_self) plain
      · exact inside
    · intro starts
      exact starts.trans (List.prefix_append _ _)

@[simp]
theorem isKeyLine_stripReturn (line : List Char) :
    isKeyLine (stripReturn line) = isKeyLine line := by
  rcases eq_or_stripReturn line with same | ends
  · rw [same]
  · rw [← isKeyLine_append_return, ← ends]

/-- A line of the old text and the line that is written for it. -/
structure Rewrites (key line out : List Char) : Prop where
  marked : isKeyLine line = true → out = keyLine key
  plain : isKeyLine line = false → out = line ∨ out = stripReturn line

theorem rewrites_edit {line kept : List Char} (same : kept = line ∨ kept = stripReturn line) :
    Rewrites key line (if isKeyLine kept then keyLine key else kept) := by
  have marked : isKeyLine kept = isKeyLine line := by
    rcases same with rfl | rfl
    · rfl
    · exact isKeyLine_stripReturn line
  rw [marked]
  constructor
  · intro found
    rw [if_pos found]
  · intro other
    rw [other, if_neg Bool.false_ne_true]
    exact same

/-- The lines that Rust sees are those of the format, up to carriage returns. -/
theorem strLines_forall₂ (text : List Char) :
    List.Forall₂ (fun line kept => kept = line ∨ kept = stripReturn line)
      (textLines text) (strLines text) := by
  unfold textLines strLines
  have stripped : ∀ lines : List (List Char),
      List.Forall₂ (fun line kept => kept = line ∨ kept = stripReturn line) lines
        (lines.map stripReturn) := by
    intro lines
    induction lines with
    | nil => exact .nil
    | cons line lines ih => exact .cons (Or.inr rfl) ih
  rcases List.eq_nil_or_concat' (text.splitOn '\n') with none | ⟨front, last, pieces⟩
  · exact absurd none (List.splitOn_ne_nil _ _)
  · rw [pieces]
    cases last with
    | nil => simp [Option.filter]
    | cons c last =>
        have kept : List.Forall₂ (fun line kept => kept = line ∨ kept = stripReturn line)
            (front ++ [c :: last]) (front.map stripReturn ++ [c :: last]) :=
          List.rel_append (stripped front) (.cons (Or.inl rfl) .nil)
        simpa [Option.filter] using kept

/-! ## Statements -/

/-- A statement of the old text and the one that is written for it. -/
structure Rewritten (key : List Char) (statement out : Statement) : Prop where
  marked : isKeyStatement statement = true → out = [keyLine key]
  plain : isKeyStatement statement = false → ∃ held line kept,
    statement = held ++ [line] ∧ out = held ++ [kept] ∧ (kept = line ∨ kept = stripReturn line)

theorem isOpen_kept {line kept : List Char} (held : List (List Char))
    (same : kept = line ∨ kept = stripReturn line) :
    isOpen (Statement.text (held ++ [kept])) = isOpen (Statement.text (held ++ [line])) := by
  rcases same with rfl | rfl
  · rfl
  · rcases eq_or_stripReturn line with keeps | ends
    · rw [keeps]
    · conv_rhs => rw [ends, text_append_append, isOpen_append_return]

theorem plain_keyLine (hex : ∀ c ∈ key, c ∈ hexDigits) :
    ∀ c ∈ keyLine key, isWhitespace c = false ∧ c ≠ '\\' ∧ c ≠ '"' ∧ c ≠ '\'' ∧ c ≠ '#' := by
  have name : ∀ c ∈ keyName ++ ['='],
      isWhitespace c = false ∧ c ≠ '\\' ∧ c ≠ '"' ∧ c ≠ '\'' ∧ c ≠ '#' :=
    forall_mem_of_all (by decide +kernel)
  have digits : ∀ c ∈ hexDigits,
      isWhitespace c = false ∧ c ≠ '\\' ∧ c ≠ '"' ∧ c ≠ '\'' ∧ c ≠ '#' :=
    forall_mem_of_all (by decide +kernel)
  intro c mem
  rw [keyLine, ← List.singleton_append, ← List.append_assoc] at mem
  rcases List.mem_append.mp mem with front | back
  · exact name c front
  · exact digits c (hex c back)

theorem isOpen_keyLine (hex : ∀ c ∈ key, c ∈ hexDigits) : isOpen (keyLine key) = false :=
  isOpen_of_plain (plain_keyLine hex)

/-- The line of the key is read as its definition. -/
theorem read_keyLine {value : List Char → Option (List Char)}
    (hex : ∀ c ∈ key, c ∈ hexDigits) (plain : value key = some key) :
    read value [keyLine key] = .defines keyName key := by
  have whole : Statement.text [keyLine key] = keyLine key := by
    simp [Statement.text]
  have noReturn : (keyLine key).getLast? ≠ some '\r' := by
    intro last
    have space := (plain_keyLine hex '\r' (List.mem_of_getLast? last)).1
    exact absurd space (by decide)
  have noBlank : key.dropWhile isWhitespace = key := by
    cases key with
    | nil => rfl
    | cons c key =>
        have space := (plain_keyLine hex c (by simp [keyLine])).1
        rw [List.dropWhile_cons, space]
        rfl
  have name : takeName (keyLine key) = some (keyName, '=' :: key) := by
    rw [takeName, keyLine, keyName_eq]
    rfl
  have exported : keyName ≠ "export".toList := by
    rw [keyName_eq]
    decide
  have parts : definition (keyLine key) = some (keyName, key) := by
    simp only [definition, name, Option.bind_some, exported, false_and, if_false, takeEquals,
      noBlank, Option.map_some]
  have front : (keyLine key).dropWhile isWhitespace = keyLine key := by
    simp [keyLine, keyName_eq, isWhitespace]
  have named : (keyLine key).head?.all (· == '#') = false := by
    simp [keyLine, keyName_eq]
  rw [Dotenv.read, whole, isOpen_keyLine hex, if_neg Bool.false_ne_true,
    stripReturn_of_getLast noReturn, readText, front, named, if_neg Bool.false_ne_true, parts]
  simp [plain]

/-- The lines are grouped into statements the way they were, statement by statement. -/
theorem statements_forall₂ (hex : ∀ c ∈ key, c ∈ hexDigits) {lines outs : List (List Char)}
    (rewrites : List.Forall₂ (Rewrites key) lines outs) (held : List (List Char))
    (fresh : lines = [] → held = [])
    (alone : ∀ statement ∈ statements held lines, ∀ line ∈ statement, isKeyLine line = true →
      statement = [line])
    (settled : ∀ statement ∈ statements held lines, isKeyStatement statement = false →
      Settled statement) :
    List.Forall₂ (Rewritten key) (statements held lines) (statements held outs) := by
  induction rewrites generalizing held with
  | nil =>
      rw [fresh rfl]
      exact .nil
  | @cons line out lines outs here later ih =>
      have closed : ∀ (rest : Statement), rest = held ++ [line] →
          (∀ other ∈ rest, isKeyLine other = true → rest = [other]) →
          Rewritten key rest (held ++ [out]) ∧
            (isKeyLine line = true → isOpen (Statement.text (held ++ [out])) = false) := by
        rintro rest rfl own
        cases marked : isKeyLine line with
        | true =>
            have single := own line (by simp) marked
            have start : held = [] := by simpa using single
            have written := here.marked marked
            subst start
            refine ⟨⟨fun _ => by simp [written], fun other => ?_⟩, fun _ => ?_⟩
            · simp [isKeyStatement, marked] at other
            · simpa [written, Statement.text] using isOpen_keyLine hex
        | false =>
            refine ⟨⟨fun found => ?_, fun _ => ⟨held, line, out, rfl, rfl, here.plain marked⟩⟩,
              fun found => by cases found⟩
            cases held with
            | nil => simp [isKeyStatement, marked] at found
            | cons first held => cases held <;> simp [isKeyStatement] at found
      rw [statements] at alone settled ⊢
      rw [statements]
      cases opened : isOpen (Statement.text (held ++ [line])) with
      | false =>
          rw [opened, if_neg Bool.false_ne_true] at alone settled
          rw [if_neg Bool.false_ne_true]
          have step := closed _ rfl (alone _ List.mem_cons_self)
          have stays : isOpen (Statement.text (held ++ [out])) = false := by
            cases marked : isKeyLine line with
            | true => exact step.2 marked
            | false => rw [isOpen_kept held (here.plain marked), opened]
          rw [stays, if_neg Bool.false_ne_true]
          refine .cons step.1 (ih [] (fun _ => rfl) ?_ ?_)
          · exact fun statement mem => alone statement (List.mem_cons_of_mem _ mem)
          · exact fun statement mem => settled statement (List.mem_cons_of_mem _ mem)
      | true =>
          rw [opened, if_pos rfl] at alone settled
          rw [if_pos rfl]
          cases later with
          | nil =>
              -- the last statement is unfinished
              have last : statements (held ++ [line]) [] = [held ++ [line]] := by
                simp [statements]
              rw [last] at alone ⊢
              have step := closed _ rfl (alone _ List.mem_cons_self)
              have whole : (if isOpen (Statement.text (held ++ [out])) = true
                  then statements (held ++ [out]) [] else (held ++ [out]) :: statements [] [])
                    = [held ++ [out]] := by
                split <;> simp [statements]
              rw [whole]
              exact .cons step.1 .nil
          | @cons next nextOut lines outs nextHere rest =>
              have filled : held ++ [line] ≠ [] := by simp
              rcases exists_statements_cons filled (next :: lines) with
                ⟨more, others, first, goesOn⟩
              have inside : more ≠ [] := goesOn (by simp)
              have mem : held ++ [line] ++ more ∈ statements (held ++ [line]) (next :: lines) := by
                rw [first]
                exact List.mem_cons_self
              have long : ∀ single : List Char, held ++ [line] ++ more ≠ [single] := by
                intro single whole
                have size := congrArg List.length whole
                have positive := List.length_pos_of_ne_nil inside
                simp at size
                omega
              have unmarked : isKeyLine line = false := by
                cases marked : isKeyLine line with
                | false => rfl
                | true => exact absurd (alone _ mem line (by simp) marked) (long line)
              have other : isKeyStatement (held ++ [line] ++ more) = false := by
                generalize statementEq : held ++ [line] ++ more = statement at long
                cases statement with
                | nil => rfl
                | cons single tail =>
                    cases tail with
                    | nil => exact absurd rfl (long single)
                    | cons second tail => rfl
              have kept : out = line := by
                have plain := (settled _ mem other).inner line (by
                  rw [List.dropLast_append_of_ne_nil inside]
                  simp)
                rcases here.plain unmarked with same | stripped
                · exact same
                · rw [stripped, stripReturn_of_getLast plain]
              rw [kept, opened, if_pos rfl]
              exact ih (held ++ [line]) (by simp) alone settled

/-! ## What is read of the new text -/

theorem isOpen_append_plain {text more : List Char} (opened : isOpen text = true)
    (plain : ∀ c ∈ more, isWhitespace c = false ∧ c ≠ '\\' ∧ c ≠ '"' ∧ c ≠ '\'' ∧ c ≠ '#') :
    isOpen (text ++ '\n' :: more) = true := by
  have stays : ∀ quoting, quoting = .double ∨ quoting = .single →
      more.foldl Quoting.next quoting = .double ∨ more.foldl Quoting.next quoting = .single := by
    induction more with
    | nil => exact fun quoting start => start
    | cons c more ih =>
        intro quoting start
        rcases plain c List.mem_cons_self with ⟨-, slash, double, single, -⟩
        rw [List.foldl_cons]
        apply ih fun later mem => plain later (List.mem_cons_of_mem _ mem)
        rcases start with rfl | rfl <;> simp [Quoting.next, slash, double, single]
  unfold isOpen at opened ⊢
  rw [List.foldl_append, List.foldl_cons]
  have start : (text.foldl Quoting.next .blank).next '\n' = .double ∨
      (text.foldl Quoting.next .blank).next '\n' = .single := by
    cases state : text.foldl Quoting.next .blank <;> simp_all [Quoting.isOpen, Quoting.next]
  rcases stays _ start with here | here <;> rw [here] <;> rfl

/-- A line behind the others is a statement of its own, unless the last one is unfinished. -/
theorem statements_concat (held lines : List (List Char)) {last : List Char}
    (plain : ∀ c ∈ last, isWhitespace c = false ∧ c ≠ '\\' ∧ c ≠ '"' ∧ c ≠ '\'' ∧ c ≠ '#')
    (waits : held = [] ∨ isOpen (Statement.text held) = true) :
    statements held (lines ++ [last]) = statements held lines ++ [[last]] ∨
      ∃ front unfinished, statements held lines = front ++ [unfinished] ∧
        statements held (lines ++ [last]) = front ++ [unfinished ++ [last]] ∧
        isOpen (Statement.text unfinished) = true ∧
        isOpen (Statement.text (unfinished ++ [last])) = true := by
  induction lines generalizing held with
  | nil =>
      rcases waits with rfl | opened
      · left
        have closed : isOpen (Statement.text [last]) = false := by
          simpa [Statement.text] using isOpen_of_plain plain
        simp [statements, closed]
      · right
        have nonempty : held ≠ [] := by
          rintro rfl
          revert opened
          decide
        have joined : Statement.text (held ++ [last]) = Statement.text held ++ '\n' :: last := by
          unfold Statement.text
          rw [intercalate_append_behind nonempty]
          simp
        have still : isOpen (Statement.text (held ++ [last])) = true := by
          rw [joined]
          exact isOpen_append_plain opened plain
        exact ⟨[], held, by simp [statements, nonempty], by simp [statements, still], opened, still⟩
  | cons line lines ih =>
      rw [List.cons_append, statements, statements]
      cases opened : isOpen (Statement.text (held ++ [line])) with
      | true =>
          rw [if_pos rfl, if_pos rfl]
          exact ih (held ++ [line]) (Or.inr opened)
      | false =>
          rw [if_neg Bool.false_ne_true, if_neg Bool.false_ne_true]
          rcases ih [] (Or.inl rfl) with own | ⟨front, unfinished, before, after, waits, still⟩
          · left
            rw [own]
            rfl
          · right
            exact ⟨(held ++ [line]) :: front, unfinished, by simp [before], by simp [after],
              waits, still⟩

theorem definitions_append_malformed (front first second : List Dotenv.Reading) :
    definitions (front ++ .malformed :: first) = definitions (front ++ .malformed :: second) := by
  induction front with
  | nil => rfl
  | cons reading front ih => cases reading <;> simp [definitions, ih]

variable {value : List Char → Option (List Char)}

/-- What is read of a statement that the new text has in its place. -/
def newReading (value : List Char → Option (List Char)) (key : List Char)
    (statement : Statement) : Dotenv.Reading :=
  if isKeyStatement statement then .defines keyName key else read value statement

theorem read_rewritten (hex : ∀ c ∈ key, c ∈ hexDigits) (plain : value key = some key)
    {statement out : Statement} (rewritten : Rewritten key statement out)
    (settled : isKeyStatement statement = false → Settled statement) :
    read value out = newReading value key statement := by
  unfold newReading
  cases marked : isKeyStatement statement with
  | true =>
      rw [rewritten.marked marked, if_pos rfl, read_keyLine hex plain]
  | false =>
      rw [if_neg Bool.false_ne_true]
      rcases rewritten.plain marked with ⟨held, line, kept, rfl, rfl, same⟩
      rcases same with rfl | rfl
      · rfl
      · rcases eq_or_stripReturn line with keeps | ends
        · rw [keeps]
        · have last := (settled marked).last line (by simp)
          conv_rhs => rw [ends, read_append_return last]

/-- The line of the key at the end, where none was replaced. -/
def addedReading (key text : List Char) : List Dotenv.Reading :=
  if (statementsOf text).any isKeyStatement then [] else [.defines keyName key]

theorem any_isKeyLine (aligned : Aligned text) :
    (strLines text).any isKeyLine = (statementsOf text).any isKeyStatement := by
  have lines : (strLines text).any isKeyLine = (textLines text).any isKeyLine := by
    have related := strLines_forall₂ text
    revert related
    generalize textLines text = lines
    generalize strLines text = kept
    intro related
    induction related with
    | nil => rfl
    | cons same rest ih =>
        rw [List.any_cons, List.any_cons, ih]
        rcases same with rfl | rfl
        · rfl
        · rw [isKeyLine_stripReturn]
  have whole : (statementsOf text).flatten = textLines text := flatten_statements [] _
  rw [lines, ← whole, Bool.eq_iff_iff, List.any_eq_true, List.any_eq_true]
  constructor
  · rintro ⟨line, mem, marked⟩
    rcases List.mem_flatten.mp mem with ⟨statement, here, inside⟩
    refine ⟨statement, here, ?_⟩
    rw [aligned.alone statement here line inside marked]
    exact marked
  · rintro ⟨statement, here, marked⟩
    match statement, marked with
    | [line], marked => exact ⟨line, List.mem_flatten.mpr ⟨_, here, by simp⟩, marked⟩

theorem outLines_plain (hex : ∀ c ∈ key, c ∈ hexDigits) :
    ∀ line ∈ outLines text key, '\n' ∉ line := by
  have own : '\n' ∉ keyLine key := by
    intro mem
    have space := (plain_keyLine hex '\n' mem).1
    exact absurd space (by decide)
  have stripped : ∀ line : List Char, '\n' ∉ line → '\n' ∉ stripReturn line := by
    intro line plain
    rcases eq_or_stripReturn line with keeps | ends
    · rwa [keeps]
    · intro mem
      exact plain (ends ▸ List.mem_append_left _ mem)
  have lines : ∀ line ∈ strLines text, '\n' ∉ line := by
    intro line mem
    rcases List.mem_append.mp mem with front | last
    · rcases List.mem_map.mp front with ⟨piece, inside, rfl⟩
      exact stripped piece (notMem_of_mem_splitOn (List.dropLast_subset _ inside))
    · have piece := (Option.filter_eq_some_iff.mp (Option.mem_toList.mp last)).1
      exact notMem_of_mem_splitOn (List.mem_of_getLast? piece)
  have edited : ∀ line ∈ (strLines text).map
      (fun line => if isKeyLine line then keyLine key else line), '\n' ∉ line := by
    intro line mem
    rcases List.mem_map.mp mem with ⟨kept, inside, rfl⟩
    split
    · exact own
    · exact lines kept inside
  intro line mem
  unfold outLines at mem
  dsimp only at mem
  split at mem
  · exact edited line mem
  · rcases List.mem_append.mp mem with front | last
    · exact edited line front
    · rw [List.mem_singleton.mp last]
      exact own

theorem outLines_ne_nil : outLines text key ≠ [] := by
  unfold outLines
  dsimp only
  split
  · next found =>
    rcases List.any_eq_true.mp found with ⟨line, mem, -⟩
    simpa using List.ne_nil_of_mem mem
  · simp

/-- What the new text defines, read off the old one. -/
theorem definitions_content (hex : ∀ c ∈ key, c ∈ hexDigits) (plain : value key = some key)
    (aligned : Aligned text) :
    definitions ((statementsOf (content (some text) key)).map (read value))
      = definitions ((statementsOf text).map (newReading value key) ++ addedReading key text) := by
  have lines : statementsOf (content (some text) key) = statements [] (outLines text key) := by
    unfold statementsOf content
    exact congrArg (statements []) (textLines_append_newline outLines_ne_nil (outLines_plain hex))
  have rewrites : List.Forall₂ (Rewrites key) (textLines text)
      ((strLines text).map fun line => if isKeyLine line then keyLine key else line) := by
    rw [List.forall₂_map_right_iff]
    exact (strLines_forall₂ text).imp fun line kept same => rewrites_edit same
  have alone := aligned.alone
  have settled := aligned.settled
  unfold statementsOf at alone settled
  have edited := statements_forall₂ hex rewrites [] (fun _ => rfl) alone settled
  have readings : (statements [] ((strLines text).map fun line =>
      if isKeyLine line then keyLine key else line)).map (read value)
        = (statementsOf text).map (newReading value key) := by
    unfold statementsOf
    revert settled edited
    generalize statements [] (textLines text) = before
    generalize statements [] ((strLines text).map _) = after
    intro settled edited
    induction edited with
    | nil => rfl
    | cons here rest ih =>
        rw [List.map_cons, List.map_cons,
          read_rewritten hex plain here (settled _ List.mem_cons_self),
          ih fun statement mem => settled statement (List.mem_cons_of_mem _ mem)]
  rw [lines, outLines, addedReading, any_isKeyLine aligned]
  split
  · rw [readings, List.append_nil]
  · rcases statements_concat [] ((strLines text).map fun line =>
        if isKeyLine line then keyLine key else line) (plain_keyLine hex) (Or.inl rfl) with
      own | ⟨front, unfinished, before, after, waits, still⟩
    · rw [own, List.map_append, readings, List.map_singleton, read_keyLine hex plain]
    · have broken : read value unfinished = .malformed := by rw [Dotenv.read, if_pos waits]
      have brokenStill : read value (unfinished ++ [keyLine key]) = .malformed := by
        rw [Dotenv.read, if_pos still]
      rw [← readings, before, after, List.map_append, List.map_append, List.map_singleton,
        List.map_singleton, broken, brokenStill, List.append_assoc]
      exact definitions_append_malformed _ _ _

/-! ## Names -/

/-- The new key is read exactly if what decides is a line that was replaced. -/
theorem lookup_key_iff (statements : List Statement) {tail : List Dotenv.Reading}
    (ends : statements.any isKeyStatement = false →
      (definitions tail).lookup keyName = some key) :
    (definitions (statements.map (newReading value key) ++ tail)).lookup keyName = some key ↔
      ∀ statement, statements.find? (decidesKey value) = some statement →
        isKeyStatement statement = true ∨ read value statement = .defines keyName key := by
  induction statements with
  | nil => simpa using ends
  | cons statement statements ih =>
      rw [List.map_cons, List.cons_append, List.find?_cons]
      cases marked : isKeyStatement statement with
      | true =>
          have decides : decidesKey value statement = true := by simp [decidesKey, marked]
          simp [newReading, marked, definitions, decides]
      | false =>
          have later := ih fun none => ends (by simp [marked, none])
          have kept : newReading value key statement = read value statement := by
            simp [newReading, marked]
          rw [kept]
          cases reading : read value statement with
          | nothing =>
              have decides : decidesKey value statement = false := by
                simp [decidesKey, marked, reading]
              simpa [definitions, decides] using later
          | malformed =>
              have decides : decidesKey value statement = true := by
                simp [decidesKey, marked, reading]
              simp [definitions, decides, marked, reading]
          | defines name given =>
              by_cases same : name = keyName
              · have decides : decidesKey value statement = true := by
                  simp [decidesKey, marked, reading, same]
                simp [definitions, decides, marked, reading, same]
              · have decides : decidesKey value statement = false := by
                  simp [decidesKey, marked, reading, same]
                have other : (keyName == name) = false := by simpa using Ne.symm same
                simpa [definitions, decides, List.lookup_cons, other] using later

/-- Another name is read as if the lines that are replaced were not there. -/
theorem lookup_other {name : List Char} (other : name ≠ keyName) (statements : List Statement)
    {tail : List Dotenv.Reading} (ends : (definitions tail).lookup name = none) :
    (definitions (statements.map (newReading value key) ++ tail)).lookup name
      = (definitions ((statements.filter (!isKeyStatement ·)).map (read value))).lookup name := by
  induction statements with
  | nil => simpa [definitions] using ends
  | cons statement statements ih =>
      rw [List.map_cons, List.cons_append, List.filter_cons]
      cases marked : isKeyStatement statement with
      | true =>
          have different : (name == keyName) = false := by simpa using other
          simpa [newReading, marked, definitions, List.lookup_cons, different] using ih
      | false =>
          have kept : newReading value key statement = read value statement := by
            simp [newReading, marked]
          rw [kept, Bool.not_false, if_pos rfl, List.map_cons]
          cases read value statement with
          | nothing => simpa [definitions] using ih
          | malformed => simp [definitions]
          | defines defined given =>
              simp only [definitions, List.lookup_cons]
              cases name == defined with
              | true => rfl
              | false => exact ih

theorem lookup_addedReading {name : List Char} (other : name ≠ keyName) :
    (definitions (addedReading key text)).lookup name = none := by
  have different : (name == keyName) = false := by simpa using other
  unfold addedReading
  split
  · rfl
  · simp [definitions, List.lookup_cons, different]

/-- The first line of a new file is a comment. -/
theorem read_header : isOpen header = false ∧ read value [header] = .nothing := by
  have closed : isOpen header = false := by
    rw [header_eq]
    decide +kernel
  have comment : ∀ text : List Char, readText value ('#' :: text) = .nothing := by
    intro text
    have space : isWhitespace '#' = false := rfl
    simp [readText, space]
  have starts : ∃ rest, stripReturn (Statement.text [header]) = '#' :: rest :=
    ⟨(stripReturn header).tail, by rw [header_eq]; decide +kernel⟩
  rcases starts with ⟨rest, whole⟩
  have same : Statement.text [header] = header := by simp [Statement.text]
  refine ⟨closed, ?_⟩
  rw [Dotenv.read, whole, same, closed, if_neg Bool.false_ne_true]
  exact comment rest

/-- What is read of a new file. -/
theorem definitions_fresh (hex : ∀ c ∈ key, c ∈ hexDigits) (plain : value key = some key) :
    definitions ((statementsOf (content none key)).map (read value)) = [(keyName, key)] := by
  have whole : content none key = ['\n'].intercalate [header, keyLine key] ++ ['\n'] := by
    simp [content]
  have noBreak : ∀ line ∈ [header, keyLine key], '\n' ∉ line := by
    intro line mem
    rcases List.mem_cons.mp mem with rfl | last
    · rw [header_eq]
      decide +kernel
    · rw [List.mem_singleton.mp last]
      intro inside
      exact absurd (plain_keyLine hex '\n' inside).1 (by decide)
  have first : isOpen (Statement.text [header]) = false := by
    simpa [Statement.text] using (@read_header value).1
  have second : isOpen (Statement.text [keyLine key]) = false := by
    simpa [Statement.text] using isOpen_keyLine hex
  have grouped : statements [] [header, keyLine key] = [[header], [keyLine key]] := by
    simp [statements, first, second]
  have lines := congrArg (statements []) (textLines_append_newline (by simp) noBreak)
  rw [statementsOf, whole, lines, grouped, List.map_cons, List.map_singleton,
    read_header.2, read_keyLine hex plain]
  rfl

theorem loads_content (hex : ∀ c ∈ key, c ∈ hexDigits) (plain : value key = some key)
    (files : Files) (aligned : Aligned (files.env.getD [])) :
    definitions ((statementsOf (content files.env key)).map (read value))
      = definitions ((statementsOf (files.env.getD [])).map (newReading value key) ++
        addedReading key (files.env.getD [])) := by
  cases env : files.env with
  | none => exact definitions_fresh hex plain
  | some text =>
      rw [env] at aligned
      exact definitions_content hex plain aligned

/-! ## The new file -/

/-- Either every call succeeds and the file is new, or the file is what it was. -/
theorem persistKey_cases (faults : Faults) (files : Files) (key : List Char) :
    ((persistKey faults files key).2 = true ∧
        (persistKey faults files key).1.env = some (content files.env key)) ∨
      ((persistKey faults files key).2 = false ∧
        (persistKey faults files key).1.env = files.env) := by
  unfold persistKey
  split
  · exact Or.inr ⟨rfl, rfl⟩
  · split
    · exact Or.inr ⟨rfl, rfl⟩
    · split
      · exact Or.inr ⟨rfl, rfl⟩
      · dsimp only
        split
        · exact Or.inr ⟨rfl, rfl⟩
        · exact Or.inl ⟨rfl, rfl⟩

theorem env_of_success {faults : Faults} {files : Files}
    (success : (persistKey faults files key).2 = true) :
    (persistKey faults files key).1.env = some (content files.env key) := by
  rcases persistKey_cases faults files key with ⟨-, env⟩ | ⟨failure, -⟩
  · exact env
  · rw [success] at failure
    cases failure

theorem env_of_failure {faults : Faults} {files : Files}
    (failure : (persistKey faults files key).2 = false) :
    (persistKey faults files key).1.env = files.env := by
  rcases persistKey_cases faults files key with ⟨success, -⟩ | ⟨-, env⟩
  · rw [success] at failure
    cases failure
  · exact env

/-- Nothing fails. -/
def Faults.none : Faults where
  read := false
  createDir := false
  write := .none
  permissions := false
  rename := false

theorem mem_hexDigits_generate (random : Bytes) : ∀ c ∈ generate random, c ∈ hexDigits :=
  fun _ mem => mem_hexDigits_of_mem_hexChars mem

/-- A new key is persisted in a file that is read the way it is edited.  Where the lines that
are replaced are statements of their own, it is persisted in no other, and a call that fails
leaves every file as it was. -/
theorem persistKey_durable (value : List Char → Option (List Char))
    (plain : ∀ text, (∀ c ∈ text, c ∈ hexDigits) → value text = some text)
    (random : Bytes) (files : Files) :
    (Durable value (files.env.getD []) (generate random) → ∀ faults,
        Persisted value files (generate random) (persistKey faults files (generate random))) ∧
      (Aligned (files.env.getD []) → (∀ faults,
          Persisted value files (generate random) (persistKey faults files (generate random))) →
        Durable value (files.env.getD []) (generate random)) ∧
      ∀ faults, (persistKey faults files (generate random)).2 = false →
        (persistKey faults files (generate random)).1.env = files.env := by
  have hex := mem_hexDigits_generate random
  generalize generate random = key at hex
  have loads : ∀ faults, (persistKey faults files key).2 = true →
      Aligned (files.env.getD []) → ∀ name,
        (persistKey faults files key).1.loads value name
          = (definitions ((statementsOf (files.env.getD [])).map (newReading value key) ++
            addedReading key (files.env.getD []))).lookup name := by
    intro faults success aligned name
    rw [Files.loads, env_of_success success, Option.getD_some, load,
      loads_content hex (plain key hex) files aligned]
  have ends : (statementsOf (files.env.getD [])).any isKeyStatement = false →
      (definitions (addedReading key (files.env.getD []))).lookup keyName = some key := by
    intro none
    simp [addedReading, none, definitions]
  refine ⟨?_, ?_, fun faults failure => env_of_failure failure⟩
  · rintro ⟨aligned, keyFirst, independent⟩ faults
    refine ⟨fun success => ?_, fun success name other => ?_, env_of_failure⟩
    · rw [loads faults success aligned]
      exact (lookup_key_iff _ ends).mpr keyFirst
    · rw [loads faults success aligned, lookup_other other _ (lookup_addedReading other)]
      exact independent name other
  · intro aligned persisted
    have success : (persistKey .none files key).2 = true := by simp [persistKey, Faults.none]
    refine ⟨aligned, ?_, fun name other => ?_⟩
    · have reads := (persisted .none).key success
      rw [loads .none success aligned] at reads
      exact (lookup_key_iff _ ends).mp reads
    · have kept := (persisted .none).others success name other
      rwa [loads .none success aligned, lookup_other other _ (lookup_addedReading other)] at kept

/-- A file with a comment, another name and an old key. -/
def usualFile : Files where
  env := some "# header\r\nPORT=8081\nCLOTO_API_KEY=00\n".toList
  tmp := none

/-- The key of a usual file is replaced. -/
theorem usual_file_durable :
    Persisted some usualFile (generate [0x2A])
      (persistKey .none usualFile (generate [0x2A])) := by
  have text : usualFile.env.getD [] = "# header\r\nPORT=8081\nCLOTO_API_KEY=00\n".toList := rfl
  rw [String.toList_ofList] at text
  have grouped : statementsOf (usualFile.env.getD []) = [["# header\r".toList],
      ["PORT=8081".toList], ["CLOTO_API_KEY=00".toList]] := by
    rw [text, String.toList_ofList, String.toList_ofList, String.toList_ofList]
    decide +kernel
  rw [String.toList_ofList, String.toList_ofList, String.toList_ofList] at grouped
  refine (persistKey_durable some (fun _ _ => rfl) [0x2A] usualFile).1 ⟨⟨?_, ?_⟩, ?_, ?_⟩ .none
  · rw [grouped]
    decide +kernel
  · rw [grouped]
    intro statement mem _
    rcases List.mem_cons.mp mem with rfl | mem
    · exact ⟨by decide +kernel, by decide +kernel⟩
    · rcases List.mem_cons.mp mem with rfl | mem
      · exact ⟨by decide +kernel, by decide +kernel⟩
      · rw [List.mem_singleton.mp mem]
        exact ⟨by decide +kernel, by decide +kernel⟩
  · intro statement found
    have first : (statementsOf (usualFile.env.getD [])).find? (decidesKey some)
        = some ["CLOTO_API_KEY=00".toList] := by decide +kernel
    rw [first] at found
    cases found
    left
    decide +kernel
  · intro name other
    have different : (name == keyName) = false := by simpa using other
    have all : definitions ((statementsOf (usualFile.env.getD [])).map (read some))
        = [("PORT".toList, "8081".toList), (keyName, "00".toList)] := by decide +kernel
    have others : definitions (((statementsOf (usualFile.env.getD [])).filter
        (!isKeyStatement ·)).map (read some)) = [("PORT".toList, "8081".toList)] := by
      decide +kernel
    rw [load, all, others, List.lookup_cons, List.lookup_cons, List.lookup_cons, different]

/-- An old key behind the word `export` stays the one that is read. -/
theorem exported_key_stays :
    ¬ ∀ value : List Char → Option (List Char),
      (∀ text, (∀ c ∈ text, c ∈ hexDigits) → value text = some text) →
        ∀ random files faults, Persisted value files (generate random)
          (persistKey faults files (generate random)) := by
  intro persisted
  have reads := (persisted some (fun _ _ => rfl) [0x2A]
    ⟨some "export CLOTO_API_KEY=00\n".toList, none⟩ .none).key
  rw [String.toList_ofList] at reads
  revert reads
  unfold Files.loads
  decide +kernel

end ClotoCore.Access.KeyFile
