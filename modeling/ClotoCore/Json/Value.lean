import Mathlib.Logic.Basic

/-!
# JSON values

A JSON document as it is read, members in document order and numbers as their
literals.  Where a name occurs twice in an object, the readers of this
development see its last value.
-/

namespace ClotoCore.Json

/-- A number literal: sign, integer part, digits behind the point, exponent. -/
structure Number where
  negative : Bool
  integer : Nat
  fraction : List (Fin 10)
  exponent : Option Int
  deriving DecidableEq

/-- The literal of a natural number. -/
def Number.ofNat (value : Nat) : Number where
  negative := false
  integer := value
  fraction := []
  exponent := none

/-- A JSON value. -/
inductive Value where
  | null
  | bool (value : Bool)
  | number (literal : Number)
  | string (text : String)
  | array (items : List Value)
  | object (members : List (String × Value))

/-- The last value recorded under a name. -/
def lastValue {α : Type} (members : List (String × α)) (name : String) : Option α :=
  (members.reverse.find? fun member => member.1 == name).map Prod.snd

/-- Members that a filter drops for their names do not count. -/
theorem lastValue_filter {α : Type} {members : List (String × α)} {name : String}
    {keep : String × α → Bool} (kept : ∀ value, keep (name, value) = true) :
    lastValue (members.filter keep) name = lastValue members name := by
  rw [lastValue, lastValue, ← List.filter_reverse, List.find?_filter]
  congr 2
  funext member
  by_cases same : member.1 = name
  · have keptMember := kept member.2
    rw [← same] at keptMember
    simp [same, keptMember]
  · simp [same]

namespace Value

/-- `Value::get` with a string index. -/
def get (value : Value) (name : String) : Option Value :=
  match value with
  | .object members => lastValue members name
  | _ => none

/-- `Value::as_str`. -/
def asStr : Value → Option String
  | .string text => some text
  | _ => none

/-- `Value::as_bool`. -/
def asBool : Value → Option Bool
  | .bool value => some value
  | _ => none

/-- `Value::as_array`. -/
def asArray : Value → Option (List Value)
  | .array items => some items
  | _ => none

/-- `Value::as_u64`: a literal without sign, point and exponent, within 64 bits. -/
def asU64 : Value → Option UInt64
  | .number literal =>
      if literal.negative = false ∧ literal.fraction = [] ∧ literal.exponent = none ∧
          literal.integer < UInt64.size then
        some (UInt64.ofNat literal.integer)
      else none
  | _ => none

/-- The members of an object. -/
def asObject : Value → Option (List (String × Value))
  | .object members => some members
  | _ => none

/-- `Value::is_null`. -/
def isNull : Value → Bool
  | .null => true
  | _ => false

/-- The text of a string member. -/
def getStr (value : Value) (name : String) : Option String :=
  (value.get name).bind asStr

end Value

/-! ## Equality -/

mutual

/-- `Value::eq`; how the numbers of two literals compare is a parameter. -/
def sameValue (sameNumber : Number → Number → Bool) : Value → Value → Bool
  | .null, .null => true
  | .bool left, .bool right => left == right
  | .number left, .number right => sameNumber left right
  | .string left, .string right => left == right
  | .array left, .array right => sameItems sameNumber left right
  | .object left, .object right =>
      sameMembers sameNumber left right &&
        right.all fun member => left.any fun other => other.1 == member.1
  | _, _ => false

/-- The items of two arrays are the same. -/
def sameItems (sameNumber : Number → Number → Bool) : List Value → List Value → Bool
  | [], [] => true
  | left :: lefts, right :: rights =>
      sameValue sameNumber left right && sameItems sameNumber lefts rights
  | _, _ => false

/-- The last value of each name is the same in the other object. -/
def sameMembers (sameNumber : Number → Number → Bool) :
    List (String × Value) → List (String × Value) → Bool
  | [], _ => true
  | (name, value) :: rest, right =>
      ((rest.any fun member => member.1 == name) ||
        (lastValue right name).any fun other => sameValue sameNumber value other) &&
        sameMembers sameNumber rest right

end

end ClotoCore.Json
