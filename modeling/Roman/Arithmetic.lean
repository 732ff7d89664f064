import Roman.Integer
import Roman.Operand.Source

/-!
# Arithmetic

Applying an operator to two operands. The shapes of the operands decide first:

* two integers make an integer, or a real;
* text beside text or beside an integer is refused;
* text on the left of a numeral is concatenated by a sum;
* in every other pair there is a numeral, and a sum, a difference or a product is a
  numeral again, a quotient is a real, and the other operators are refused.

A numeral result that has no numeral is a fault that holds the exact number.
-/

namespace Roman

namespace Operator

/-- The fault of an operator that does not take its operands. -/
def refuse (operator : Operator) (left right : Operand) : Except Fault Value :=
  .error (.mismatch (.operands operator left right))

/-- Applies an operator where a numeral takes part. -/
def applyNumeral (operator : Operator) (left right : Operand) : Except Fault Value :=
  match operator with
  | add => (Numeral.ofInt (left.decimal + right.decimal)).map .numeral
  | subtract => (Numeral.ofInt (left.decimal - right.decimal)).map .numeral
  | multiply => (Numeral.ofInt (left.decimal * right.decimal)).map .numeral
  | divide => Integer.realQuotient left.decimal right.decimal
  | floorDivide | modulo | power => operator.refuse left right

/-- Applies an operator to two operands. -/
def apply (operator : Operator) (left right : Operand) : Except Fault Value :=
  match left, right with
  | .plain a, .plain b => Integer.apply operator a b
  | .text _, .text _ => operator.refuse left right
  | .text _, .plain _ => operator.refuse left right
  | .plain _, .text _ => operator.refuse left right
  | .text l, .numeral r =>
    if operator = add then .ok (.text (l.canonical ++ r.canonical))
    else operator.applyNumeral left right
  | .numeral _, _ => operator.applyNumeral left right
  | .plain _, .numeral _ => operator.applyNumeral left right

/-- Applies an operator to two operands that are still to be coerced, the left one
first. -/
def applySources (operator : Operator) (left right : Operand.Source) : Except Fault Value := do
  let l ← left.coerce
  let r ← right.coerce
  operator.apply l r

/-- Applies an operator to two values. -/
def applyValues (operator : Operator) (left right : Value) : Except Fault Value :=
  operator.applySources (.value left) (.value right)

end Operator

/-! ### Arithmetic of numerals alone -/

namespace Numeral

/-- The sum of two numerals. -/
def add (a b : Numeral) : Except Fault Numeral := ofInt ((a.decimal : Int) + b.decimal)

/-- The difference of two numerals. -/
def subtract (a b : Numeral) : Except Fault Numeral := ofInt ((a.decimal : Int) - b.decimal)

/-- The product of two numerals. -/
def multiply (a b : Numeral) : Except Fault Numeral := ofInt ((a.decimal : Int) * b.decimal)

end Numeral

end Roman
