import ClotoCore.Json.Value
import Mathlib.Algebra.Group.Nat.Defs

/-!
# Places in a JSON value

A place is reached by the names of members and the indices of items.  Of several members
with one name the first one counts.
-/

namespace ClotoCore.Json

/-- A step into a value. -/
inductive Step where
  | key (name : String)
  | index (place : Nat)
  deriving DecidableEq

/-- The value at a place. -/
def extract : List Step → Value → Option Value
  | [], value => some value
  | .key name :: steps, .object members =>
      (members.find? (·.1 == name)).bind fun member => extract steps member.2
  | .index place :: steps, .array items => items[place]?.bind (extract steps)
  | _ :: _, _ => none

/-- The first member with a name is changed. -/
def changeMember (name : String) (change : Value → Value) :
    List (String × Value) → List (String × Value)
  | [] => []
  | member :: members =>
      if member.1 == name then (member.1, change member.2) :: members
      else member :: changeMember name change members

/-- The value with another one at a place that it has. -/
def replaceAt : List Step → Value → Value → Value
  | [], new, _ => new
  | .key name :: steps, new, .object members =>
      .object (changeMember name (replaceAt steps new) members)
  | .index place :: steps, new, .array items => .array (items.modify place (replaceAt steps new))
  | _ :: _, _, value => value

/-- A value with nothing but a place. -/
def placed : List Step → Value → Value
  | [], value => value
  | .key name :: steps, value => .object [(name, placed steps value)]
  | .index place :: steps, value => .array (List.replicate place .null ++ [placed steps value])

/-- The values of the members with a name. -/
def Value.named (value : Value) (name : String) : List Value :=
  match value with
  | .object members => (members.filter (·.1 == name)).map Prod.snd
  | _ => []

/-! ## Members -/

variable {members : List (String × Value)} {name other : String} {change : Value → Value}

theorem find?_changeMember {member : String × Value}
    (found : members.find? (·.1 == name) = some member) :
    (changeMember name change members).find? (·.1 == name) = some (member.1, change member.2) := by
  induction members with
  | nil => cases found
  | cons first members ih =>
      rw [List.find?_cons] at found
      rw [changeMember]
      cases same : first.1 == name with
      | true =>
          rw [same] at found
          cases found
          rw [if_pos rfl, List.find?_cons, same]
      | false =>
          rw [same] at found
          rw [if_neg Bool.false_ne_true, List.find?_cons, same]
          exact ih found

/-- The members with other names stay. -/
theorem filter_changeMember (different : other ≠ name) :
    (changeMember name change members).filter (·.1 == other)
      = members.filter (·.1 == other) := by
  induction members with
  | nil => rfl
  | cons first members ih =>
      rw [changeMember]
      split
      · next same =>
        have out : (first.1 == other) = false := by
          rw [beq_iff_eq.mp same]
          simpa using Ne.symm different
        simp [out]
      · rw [List.filter_cons, List.filter_cons, ih]

/-! ## Places -/

variable {steps : List Step} {value new : Value}

/-- What is put at a place is found there. -/
theorem extract_replaceAt {old : Value} (found : extract steps value = some old) :
    extract steps (replaceAt steps new value) = some new := by
  induction steps generalizing value with
  | nil => rfl
  | cons step steps ih =>
      cases step with
      | key name =>
          cases value with
          | object members =>
              rw [extract] at found
              rcases Option.bind_eq_some_iff.mp found with ⟨member, here, inside⟩
              rw [replaceAt, extract, find?_changeMember here]
              exact ih inside
          | _ => cases found
      | index place =>
          cases value with
          | array items =>
              rw [extract] at found
              rcases Option.bind_eq_some_iff.mp found with ⟨item, here, inside⟩
              have changed : (items.modify place (replaceAt steps new))[place]?
                  = some (replaceAt steps new item) := by
                rw [List.getElem?_modify_eq, here]
                rfl
              rw [replaceAt, extract, changed]
              exact ih inside
          | _ => cases found

/-- Another member is not touched by a change within one. -/
theorem named_replaceAt_of_ne (different : other ≠ name) :
    (replaceAt (.key name :: steps) new value).named other = value.named other := by
  cases value with
  | object members =>
      rw [replaceAt, Value.named, Value.named, filter_changeMember different]
  | _ => rfl

theorem extract_placed : extract steps (placed steps value) = some value := by
  induction steps with
  | nil => rfl
  | cons step steps ih =>
      cases step with
      | key name => simp [placed, extract, ih]
      | index place => simp [placed, extract, ih]

theorem replaceAt_placed : replaceAt steps new (placed steps value) = placed steps new := by
  induction steps with
  | nil => rfl
  | cons step steps ih =>
      cases step with
      | key name => simp [placed, replaceAt, changeMember, ih]
      | index place =>
          have changed : (List.replicate place Value.null ++ [placed steps value]).modify place
              (replaceAt steps new) = List.replicate place .null ++ [placed steps new] := by
            induction place with
            | zero => simp [ih]
            | succ place later => simpa [List.replicate_succ] using later
          rw [placed, replaceAt, changed, placed]

/-- Under one name there is a text only where that name is the whole place. -/
theorem extract_key_placed_string {text found : String}
    (here : extract [.key name] (placed steps (.string text)) = some (.string found)) :
    steps = [.key name] := by
  cases steps with
  | nil => cases here
  | cons step steps =>
      cases step with
      | index place => cases here
      | key first =>
          rw [placed, extract, List.find?_cons] at here
          cases same : first == name with
          | false =>
              simp [same] at here
          | true =>
              simp only [same, Option.bind_some, extract, Option.some.injEq] at here
              cases steps with
              | nil => rw [beq_iff_eq.mp same]
              | cons next steps => cases next <;> cases here

/-! ## Numbers -/

/-- The digits of a literal, and the power of ten that they are multiplied with. -/
def Number.digits (literal : Number) : Nat :=
  literal.fraction.foldl (fun digits digit => digits * 10 + digit.val) literal.integer

/-- The exponent of the last digit. -/
def Number.scale (literal : Number) : Int :=
  literal.exponent.getD 0 - literal.fraction.length

/-- Two literals stand for the same number. -/
def Number.same (left right : Number) : Bool :=
  let low := min left.scale right.scale
  left.digits * 10 ^ (left.scale - low).toNat == right.digits * 10 ^ (right.scale - low).toNat &&
    (left.negative == right.negative || left.digits == 0)

example : Number.same ⟨false, 100, [0], none⟩ ⟨false, 1, [], some 2⟩ = true := by
  decide +kernel

end ClotoCore.Json
