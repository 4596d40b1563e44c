import ClotoCore.Access.Rows
import ClotoCore.Json.Value

/-!
# The gate before a tool call

An agent may call a tool that the access rows grant it, with arguments that its
argument rules admit; the kernel may call any.  A tool of the kernel is refused
only by an explicit Deny.  A query that fails refuses the call.
-/

namespace ClotoCore.Access

open ClotoCore.Json

/-! ## What the gate reads -/

/-- `Caller` -/
inductive Caller where
  | agent (id : String)
  | system
  deriving DecidableEq

/-- What the libraries say of values and texts: whether two values are equal, how
a value is shown, and two Unicode tables. -/
structure Texts where
  same : Value → Value → Bool
  display : Value → String
  nfkc : String → String
  toLowercase : String → String

/-- `ArgumentRule` -/
structure ArgumentRule where
  serverId : String
  toolName : Option String
  equals : List (String × Value)
  required : List String

/-- A row of the argument rules, whose last two columns are read as JSON. -/
structure ArgumentRuleRow where
  agentId : String
  serverId : String
  toolName : String
  equals : Except String (List (String × Value))
  required : Except String (List String)

/-- The queries of the gate. -/
inductive Query where
  | toolAccess (agentId serverId toolName : String)
  | explicitPermission (agentId serverId toolName : String)
  | argumentRules (agentId serverId toolName : String)
  | enabledAgent (agentId : String)
  deriving DecidableEq

/-- The tables the gate reads, and the queries that fail. -/
structure Database where
  clock : Clock
  policies : String → Option String
  rows : List AccessControlEntry
  ruleRows : List ArgumentRuleRow
  enabledAgents : List String
  fault : Query → Option String

/-- `ToolFailure`: a rejection with its hint, an error of the protocol with its
code, or another error. -/
inductive ToolFailure where
  | rejection (reason remediationHint : String)
  | mgpError (code : Nat) (message : String)
  | error (message : String)
  deriving DecidableEq

/-- `access_denied` -/
def accessDenied (reason : String) : ToolFailure :=
  .rejection reason "Ask the operator to grant this agent access to the tool."

/-- `MgpError::access_denied` -/
def accessCheckFailed (agentId serverId toolName : String) : ToolFailure :=
  .mgpError 1001 s!"Access check failed for agent '{agentId}' on '{serverId}.{toolName}'"

namespace Database

/-- The answer of a query that does not fail. -/
def query {α : Type} (database : Database) (asked : Query) (answer : Except String α) :
    Except String α :=
  match database.fault asked with
  | some problem => .error problem
  | none => answer

/-- `resolve_tool_access` -/
def toolAccess (database : Database) (agentId serverId toolName : String) :
    Except String PermissionLevel :=
  database.query (.toolAccess agentId serverId toolName) <| .ok <|
    resolveToolAccess database.clock database.policies database.rows agentId serverId toolName

/-- `resolve_explicit_permission` -/
def explicitPermission (database : Database) (agentId serverId toolName : String) :
    Except String (Option PermissionLevel) :=
  database.query (.explicitPermission agentId serverId toolName) <| .ok <|
    resolveExplicitPermission database.clock database.rows agentId serverId toolName

/-- Whether an agent is there and enabled. -/
def enabledAgent (database : Database) (agentId : String) : Except String Bool :=
  database.query (.enabledAgent agentId) (.ok (database.enabledAgents.contains agentId))

/-- `argument_rule_from_row` -/
def argumentRuleFromRow (row : ArgumentRuleRow) : Except String ArgumentRule := do
  let equals ← row.equals
  let required ← row.required
  return {
    serverId := row.serverId
    toolName := if row.toolName = "" then none else some row.toolName
    equals, required }

/-- `argument_rules_for_call` -/
def argumentRulesForCall (database : Database) (agentId serverId toolName : String) :
    Except String (List ArgumentRule) :=
  database.query (.argumentRules agentId serverId toolName) <|
    (database.ruleRows.filter fun row =>
      row.agentId == agentId && row.serverId == serverId
        && (row.toolName == "" || row.toolName == toolName)).mapM argumentRuleFromRow

end Database

/-! ## Argument rules -/

namespace ArgumentRule

/-- The arguments meet a rule: one it names has its value wherever it is present,
and one it requires is present and not null. -/
structure Satisfied (texts : Texts) (rule : ArgumentRule) (args : Value) : Prop where
  equals : ∀ entry ∈ rule.equals, ∀ actual, args.get entry.1 = some actual →
    texts.same actual entry.2 = true
  required : ∀ name ∈ rule.required, ∃ actual, args.get name = some actual ∧ actual.isNull = false

/-- What is wrong with an argument whose value a rule names. -/
def equalsProblem (texts : Texts) (args : Value) (entry : String × Value) : Option String :=
  match args.get entry.1 with
  | none => none
  | some actual =>
      if texts.same actual entry.2 then none
      else
        let name := entry.1
        let expected := texts.display entry.2
        let got := texts.display actual
        some s!"{name} must be {expected} (got {got})"

/-- What is wrong with an argument that a rule requires. -/
def requiredProblem (args : Value) (name : String) : Option String :=
  if (args.get name).all Value.isNull then some s!"{name} is required" else none

/-- The problems a rule has with the arguments. -/
def problems (texts : Texts) (args : Value) (rule : ArgumentRule) : List String :=
  rule.equals.filterMap (equalsProblem texts args)
    ++ rule.required.filterMap (requiredProblem args)

theorem problems_eq_nil_iff {texts : Texts} {args : Value} {rule : ArgumentRule} :
    rule.problems texts args = [] ↔ rule.Satisfied texts args := by
  rw [problems, List.append_eq_nil_iff, List.filterMap_eq_nil_iff, List.filterMap_eq_nil_iff]
  constructor
  · rintro ⟨equals, required⟩
    constructor
    · intro entry mem actual present
      have clear := equals entry mem
      simp only [equalsProblem, present] at clear
      by_contra other
      simp [other] at clear
    · intro name mem
      have clear := required name mem
      cases present : args.get name with
      | none => simp [requiredProblem, present] at clear
      | some actual =>
          refine ⟨actual, rfl, ?_⟩
          by_contra isNull
          simp [requiredProblem, present, isNull] at clear
  · rintro ⟨equals, required⟩
    constructor
    · intro entry mem
      rw [equalsProblem]
      cases present : args.get entry.1 with
      | none => rfl
      | some actual => simp [equals entry mem actual present]
    · intro name mem
      rcases required name mem with ⟨actual, present, notNull⟩
      simp [requiredProblem, present, notNull]

end ArgumentRule

/-- `enforce_argument_rules` -/
def enforceArgumentRules (texts : Texts) (database : Database)
    (agentId serverId toolName : String) (args : Value) : Except ToolFailure Unit :=
  match database.argumentRulesForCall agentId serverId toolName with
  | .error _ => .error (accessCheckFailed agentId serverId toolName)
  | .ok rules =>
      match rules.flatMap (ArgumentRule.problems texts args) with
      | [] => .ok ()
      | problems =>
          let listed := String.intercalate "; "
            (problems.mergeSort fun first second => decide (first ≤ second)).dedup
          .error <| .rejection
            s!"Access denied: agent '{agentId}' may not call '{toolName}' on server '{serverId}' with these arguments: {listed}"
            "Call the tool again with the argument values the rule requires."

/-- The argument rules of an agent can be read and admit the arguments. -/
def MeetsRules (texts : Texts) (database : Database) (agentId serverId toolName : String)
    (args : Value) : Prop :=
  ∃ rules, database.argumentRulesForCall agentId serverId toolName = .ok rules ∧
    ∀ rule ∈ rules, rule.Satisfied texts args

/-! ## The two gates -/

/-- The access rows grant a tool to an agent. -/
def Granted (database : Database) (agentId serverId toolName : String) : Prop :=
  database.toolAccess agentId serverId toolName = .ok .allow

instance (database : Database) (agentId serverId toolName : String) :
    Decidable (Granted database agentId serverId toolName) :=
  match access : database.toolAccess agentId serverId toolName with
  | .ok .allow => isTrue access
  | .ok .deny => isFalse (by rw [Granted, access]; intro same; cases same)
  | .error _ => isFalse (by rw [Granted, access]; intro same; cases same)

/-- `enforce_caller_grant` -/
def enforceCallerGrant (texts : Texts) (database : Database) (caller : Caller)
    (serverId toolName : String) (args : Value) : Except ToolFailure Unit :=
  match caller with
  | .system => .ok ()
  | .agent agentId =>
      match database.toolAccess agentId serverId toolName with
      | .ok .allow => enforceArgumentRules texts database agentId serverId toolName args
      | .ok .deny => .error <| accessDenied
          s!"Access denied: agent '{agentId}' is not granted '{toolName}' on server '{serverId}'"
      | .error _ => .error (accessCheckFailed agentId serverId toolName)

/-- `is_kernel_native_tool` -/
def isKernelNativeTool (toolName : String) : Bool :=
  "mgp.".toList.isPrefixOf toolName.toList || "gui.".toList.isPrefixOf toolName.toList

/-- `enforce_kernel_rbac` -/
def enforceKernelRbac (database : Database) (caller : Caller) (toolName : String) :
    Except ToolFailure Unit :=
  match caller with
  | .system => .ok ()
  | .agent agentId =>
      match database.explicitPermission agentId "kernel" toolName with
      | .error problem => .error (.error problem)
      | .ok (some .deny) => .error <| accessDenied
          s!"Access denied: agent '{agentId}' cannot use kernel tool '{toolName}'"
      | .ok _ => .ok ()

section Gates

variable {texts : Texts} {database : Database} {agentId serverId toolName : String} {args : Value}

theorem enforceArgumentRules_iff :
    enforceArgumentRules texts database agentId serverId toolName args = .ok () ↔
      MeetsRules texts database agentId serverId toolName args := by
  rw [enforceArgumentRules, MeetsRules]
  cases database.argumentRulesForCall agentId serverId toolName with
  | error problem => simp
  | ok rules =>
      have clear : rules.flatMap (ArgumentRule.problems texts args) = [] ↔
          ∀ rule ∈ rules, rule.Satisfied texts args := by
        rw [List.flatMap_eq_nil_iff]
        exact forall₂_congr fun rule _ => ArgumentRule.problems_eq_nil_iff
      simp only [Except.ok.injEq, exists_eq_left', ← clear]
      cases rules.flatMap (ArgumentRule.problems texts args) <;> simp

@[simp]
theorem enforceCallerGrant_system :
    enforceCallerGrant texts database .system serverId toolName args = .ok () :=
  rfl

/-- An agent passes with a grant and arguments that its rules admit. -/
theorem enforceCallerGrant_agent_iff :
    enforceCallerGrant texts database (.agent agentId) serverId toolName args = .ok () ↔
      Granted database agentId serverId toolName ∧
        MeetsRules texts database agentId serverId toolName args := by
  rw [enforceCallerGrant, Granted, ← enforceArgumentRules_iff]
  cases database.toolAccess agentId serverId toolName with
  | error problem => simp
  | ok permission => cases permission <;> simp

@[simp]
theorem enforceKernelRbac_system : enforceKernelRbac database .system toolName = .ok () :=
  rfl

/-- An agent passes the gate of the kernel's tools without an explicit Deny. -/
theorem enforceKernelRbac_agent_iff :
    enforceKernelRbac database (.agent agentId) toolName = .ok () ↔
      ∃ answer, database.explicitPermission agentId "kernel" toolName = .ok answer ∧
        answer ≠ some .deny := by
  rw [enforceKernelRbac]
  cases database.explicitPermission agentId "kernel" toolName with
  | error problem => simp
  | ok answer =>
      cases answer with
      | none => simp
      | some permission => cases permission <;> simp

end Gates

end ClotoCore.Access
