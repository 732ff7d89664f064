import Roman.Arithmetic
import Roman.Script.Action

/-!
# Carrying out commands

There is one way to carry out a command for each category. Only an assignment
changes the store, and only an assignment has no value. Each checks the number of
arguments before it resolves any of them, and resolves them from left to right.
-/

namespace Roman

namespace Command

/-- Sets the first argument to what the second one stands for. -/
def assign (c : Command) : Action (Option Value) := do
  let arguments ← Action.lift (c.exactly 2)
  let name := arguments[0]
  let token := arguments[1]
  let value ← Action.resolve token
  Action.record (.setting name token)
  Action.bindVariable name value
  return none

/-- Applies the operator of the keyword to the two arguments. -/
def compute (c : Command) : Action (Option Value) := do
  let operator ← Action.lift <|
    match c.keyword.operator? with
    | some operator => .ok operator
    | none => .error (.malformed (.notArithmetic c.keyword))
  let arguments ← Action.lift (c.exactly 2)
  let left ← Action.resolve arguments[0]
  let right ← Action.resolve arguments[1]
  let value ← Action.lift ((operator.applyValues left right).mapError (.operation c.keyword))
  return some value

/-- The other form of a value: the integer of a numeral, or the numeral of an
integer. -/
def converted : Value → Except Fault Value
  | .numeral n => .ok (.integer (Int64.ofNat n.decimal))
  | .integer i => (Numeral.ofInt i.toInt).map .numeral
  | .real x => .error (.mismatch (.unconvertible (Value.real x).kind))
  | .text s => .error (.mismatch (.unconvertible (Value.text s).kind))

/-- Converts what the argument stands for. -/
def convert (c : Command) : Action (Option Value) := do
  let arguments ← Action.lift (c.exactly 1)
  let value ← Action.resolve arguments[0]
  let other ← Action.lift ((converted value).mapError .numeral)
  return some other

/-- Shows what the argument stands for as text. -/
def display (c : Command) : Action (Option Value) := do
  let arguments ← Action.lift (c.exactly 1)
  let value ← Action.resolve arguments[0]
  return some (.text value.toText)

/-- Carries out a command as one of the given category. -/
def handle (category : Category) (c : Command) : Action (Option Value) :=
  match category with
  | .assignment => c.assign
  | .arithmetic => c.compute
  | .conversion => c.convert
  | .display => c.display

end Command

end Roman
