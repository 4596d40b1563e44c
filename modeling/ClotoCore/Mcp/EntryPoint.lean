import ClotoCore.Encoding.CommandLine
import ClotoCore.Mcp.Isolation

/-!
# The sealed file and the script that runs

The seal of a server that an interpreter runs is that of its first argument without a
dash.  The interpreter reads its arguments by a grammar of its own, in the directory that
the child is started in, and the two agree as far as that argument is the script.
-/

namespace ClotoCore.Mcp

open ClotoCore.CommandLine

/-! ## The resolver -/

/-- `Path::file_name` -/
def fileName (path : List Char) : Option (List Char) :=
  match ((path.splitOn '/').filter fun component => component ≠ [] && component ≠ ['.']).getLast? with
  | some ['.', '.'] => none
  | name => name

/-- `Path::file_stem` -/
def fileStem (path : List Char) : Option (List Char) :=
  (fileName path).map fun name =>
    let before := (name.reverse.dropWhile (· != '.')).tail.reverse
    if before = [] then name else before

/-- The interpreters that the resolver knows. -/
inductive Interpreter where
  | python
  | node
  | deno
  | bun
  deriving DecidableEq

/-- The interpreter that a command names, by its lowered stem. -/
def interpreterOf (command : String) : Option Interpreter :=
  let stem := ((fileStem command.toList).getD command.toList).map Char.toLower
  if "python".toList.isPrefixOf stem then some .python
  else if stem = "node".toList then some .node
  else if stem = "deno".toList then some .deno
  else if stem = "bun".toList then some .bun
  else none

/-- `starts_with('-')` -/
def startsWithDash (argument : String) : Bool :=
  "-".toList.isPrefixOf argument.toList

/-- `resolve_sealable_entry_point` -/
def resolveSealableEntryPoint (command : String) (args : List String) : String :=
  if (interpreterOf command).isSome then
    (args.find? fun argument => !startsWithDash argument).getD command
  else command

/-- The directory that a child is started in: its sandbox, where the profile has one for
it. -/
def childDirectory (kernelDir : String) (profile : Option IsolationProfile) : String :=
  match profile with
  | none => kernelDir
  | some profile =>
      if profile.filesystemScope = .unrestricted then kernelDir
      else joinPath kernelDir profile.sandboxDir

/-! ## What an interpreter runs -/

/-- The grammar of an interpreter, which takes what starts with a dash for an option. -/
structure Grammar where
  option : Bool → String → Role
  operand : Bool → String → Operand

/-- The grammar as one of command lines in general. -/
def Grammar.commandLine (grammar : Grammar) : CommandLine.Grammar String where
  isOption := startsWithDash
  option := grammar.option
  operand := grammar.operand

/-- A launch of a server: how interpreters read arguments, which files are there, where the
kernel runs, and the profile of the child. -/
structure Launch where
  grammar : Interpreter → Grammar
  isThere : String → Bool
  kernelDir : String
  profile : Option IsolationProfile
  command : String
  args : List String

/-- The file whose bytes the seal binds. -/
def Launch.sealed (launch : Launch) : String :=
  joinPath launch.kernelDir (resolveSealableEntryPoint launch.command launch.args)

/-- The file that an interpreter opens for an argument. -/
def Launch.opened (launch : Launch) (script : String) : String :=
  joinPath (childDirectory launch.kernelDir launch.profile) script

/-- Where an interpreter is started and the resolved file is there, that file is the script
which the interpreter runs. -/
def Launch.SealCoversScript (launch : Launch) : Prop :=
  ∀ interpreter, interpreterOf launch.command = some interpreter →
    launch.isThere launch.sealed = true →
      ((launch.grammar interpreter).commandLine.script launch.args).map launch.opened =
        some launch.sealed

/-- The first argument without a dash is the script, behind options that stand alone, and it
is the same file for the child as for the kernel. -/
def Launch.Plain (launch : Launch) (interpreter : Interpreter) : Prop :=
  ∃ script, (launch.grammar interpreter).commandLine.Straight launch.args script ∧
    launch.opened script = joinPath launch.kernelDir script

/-- The script is another argument, which names the same file. -/
def Launch.Elsewhere (launch : Launch) (interpreter : Interpreter) : Prop :=
  (∀ script, ¬ (launch.grammar interpreter).commandLine.Straight launch.args script) ∧
    ∃ script, (launch.grammar interpreter).commandLine.script launch.args = some script ∧
      launch.opened script = launch.sealed

theorem resolveSealableEntryPoint_of_straight {command script : String} {args : List String}
    {interpreter : Interpreter} {grammar : Grammar}
    (isInterpreter : interpreterOf command = some interpreter)
    (straight : grammar.commandLine.Straight args script) :
    resolveSealableEntryPoint command args = script := by
  have found : args.find? (fun argument => !startsWithDash argument) = some script :=
    straight.find?_eq
  rw [resolveSealableEntryPoint, isInterpreter, Option.isSome_some, if_pos rfl, found,
    Option.getD_some]

/-- The sealed file is the executed one if and only if the resolved file is not there, or the
command line is plain, or its script is another argument for the same file. -/
theorem sealCoversScript_iff (launch : Launch) :
    launch.SealCoversScript ↔
      ∀ interpreter, interpreterOf launch.command = some interpreter →
        launch.isThere launch.sealed = true →
          launch.Plain interpreter ∨ launch.Elsewhere interpreter := by
  constructor
  · intro covers interpreter isInterpreter there
    rcases Option.map_eq_some_iff.mp (covers interpreter isInterpreter there) with
      ⟨script, scriptEq, opened⟩
    by_cases straight :
        ∃ plain, (launch.grammar interpreter).commandLine.Straight launch.args plain
    · rcases straight with ⟨plain, straight⟩
      have same : script = plain := Option.some.inj (scriptEq.symm.trans straight.script_eq)
      subst same
      have resolved := resolveSealableEntryPoint_of_straight isInterpreter straight
      left
      refine ⟨script, straight, ?_⟩
      rw [opened, Launch.sealed, resolved]
    · right
      exact ⟨fun plain isStraight => straight ⟨plain, isStraight⟩, script, scriptEq, opened⟩
  · intro condition interpreter isInterpreter there
    rcases condition interpreter isInterpreter there with
      ⟨script, straight, opened⟩ | ⟨-, script, scriptEq, opened⟩
    · rw [straight.script_eq, Option.map_some, opened, Launch.sealed,
        resolveSealableEntryPoint_of_straight isInterpreter straight]
    · rw [scriptEq, Option.map_some, opened]

/-! ## Python -/

/-- What a cluster of one-letter options makes of the arguments behind it. -/
def pythonLetters : List Char → Role
  | [] => .flag
  | letter :: rest =>
      if letter ∈ ['W', 'X'] then if rest = [] then .takesValue else .flag
      else if letter ∈ ['b', 'B', 'd', 'E', 'i', 'I', 'O', 'P', 'q', 'R', 's', 'S', 't',
        'u', 'v', 'x']
        then pythonLetters rest
      -- A command, a module, a question about the interpreter, or no option at all.
      else .givesProgram

/-- The options of `python`. -/
def pythonOption (argument : String) : Role :=
  match argument.toList with
  | ['-'] => .givesProgram
  | ['-', '-'] => .endsOptions
  | '-' :: '-' :: _ =>
      if argument = "--check-hash-based-pycs" then .takesValue else .givesProgram
  | '-' :: letters => pythonLetters letters
  | _ => .flag

/-- The grammar of Python's command line. -/
def pythonGrammar : Grammar where
  option _ := pythonOption
  operand _ _ := .script

/-- A server whose script stands behind an option with a value. -/
def optionLaunch : Launch where
  grammar _ := pythonGrammar
  isThere _ := true
  kernelDir := "/data"
  profile := none
  command := "python"
  args := ["-X", "/data/mcp-servers/reader/server.py", "/data/mcp-servers/other/server.py"]

/-- The seal of the value of an option is verified, and another file runs. -/
theorem not_always_sealCoversScript : ¬ ∀ launch : Launch, launch.SealCoversScript := by
  intro always
  have covers := always optionLaunch .python (by decide) rfl
  revert covers
  decide

end ClotoCore.Mcp
