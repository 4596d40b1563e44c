import Mathlib.Data.List.Basic

/-!
# Command lines of interpreters

An interpreter reads its arguments from left to right: options first, some of which
take the next argument as their value, then perhaps a subcommand with options of its
own, then the script.  Some options give the program themselves, and then no argument is
a script.
-/

namespace ClotoCore.CommandLine

universe u

/-- What an option makes of the arguments behind it. -/
inductive Role where
  /-- Nothing: the option stands alone or has its value with it. -/
  | flag
  | takesValue
  | endsOptions
  /-- No argument behind it is read as a script. -/
  | givesProgram
  deriving DecidableEq

/-- What the first argument that is not an option is. -/
inductive Operand where
  | script
  /-- A subcommand behind which options and a script follow. -/
  | run
  | other
  deriving DecidableEq

/-- The grammar of an interpreter, before and behind a subcommand. -/
structure Grammar (α : Type u) where
  isOption : α → Bool
  option : Bool → α → Role
  operand : Bool → α → Operand

/-- What is read next. -/
inductive Reading where
  | options (behindRun : Bool)
  | value (behindRun : Bool)
  | operands

variable {α : Type u}

/-- The argument that is read as the script. -/
def Grammar.scriptFrom (grammar : Grammar α) : Reading → List α → Option α
  | _, [] => none
  | .operands, argument :: _ => some argument
  | .value behindRun, _ :: rest => grammar.scriptFrom (.options behindRun) rest
  | .options behindRun, argument :: rest =>
      if grammar.isOption argument then
        match grammar.option behindRun argument with
        | .flag => grammar.scriptFrom (.options behindRun) rest
        | .takesValue => grammar.scriptFrom (.value behindRun) rest
        | .endsOptions => grammar.scriptFrom .operands rest
        | .givesProgram => none
      else
        match grammar.operand behindRun argument with
        | .script => some argument
        | .run => grammar.scriptFrom (.options true) rest
        | .other => none

/-- The script of a command line. -/
def Grammar.script (grammar : Grammar α) (arguments : List α) : Option α :=
  grammar.scriptFrom (.options false) arguments

/-- The first argument that is not an option is the script, and every option before it
stands alone. -/
def Grammar.Straight (grammar : Grammar α) (arguments : List α) (script : α) : Prop :=
  ∃ front back, arguments = front ++ script :: back ∧
    (∀ argument ∈ front, grammar.isOption argument = true ∧ grammar.option false argument = .flag) ∧
    grammar.isOption script = false ∧ grammar.operand false script = .script

variable {grammar : Grammar α} {arguments front back : List α} {script : α}

/-- Options that stand alone are passed over. -/
theorem Grammar.scriptFrom_flags {behindRun : Bool}
    (flags : ∀ argument ∈ front,
      grammar.isOption argument = true ∧ grammar.option behindRun argument = .flag) :
    grammar.scriptFrom (.options behindRun) (front ++ back) =
      grammar.scriptFrom (.options behindRun) back := by
  induction front with
  | nil => rfl
  | cons argument rest ih =>
      rcases flags argument List.mem_cons_self with ⟨isOption, flag⟩
      rw [List.cons_append, scriptFrom, if_pos isOption, flag]
      exact ih fun other mem => flags other (List.mem_cons_of_mem _ mem)

theorem Grammar.Straight.script_eq (straight : grammar.Straight arguments script) :
    grammar.script arguments = some script := by
  rcases straight with ⟨front, back, rfl, flags, notOption, operand⟩
  rw [Grammar.script, scriptFrom_flags flags, scriptFrom, notOption, if_neg Bool.false_ne_true,
    operand]

/-- The script of a straight command line is the first argument that is not an option. -/
theorem Grammar.Straight.find?_eq (straight : grammar.Straight arguments script) :
    arguments.find? (fun argument => !grammar.isOption argument) = some script := by
  rcases straight with ⟨front, back, rfl, flags, notOption, -⟩
  apply List.find?_eq_some_iff_append.mpr
  refine ⟨by simp [notOption], front, back, rfl, ?_⟩
  intro argument mem
  simp [(flags argument mem).1]

end ClotoCore.CommandLine
