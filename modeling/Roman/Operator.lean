/-!
# Operators

The seven binary operators of arithmetic.
-/

namespace Roman

/-- A binary operator. -/
inductive Operator where
  /-- The sum. -/
  | add
  /-- The difference. -/
  | subtract
  /-- The product. -/
  | multiply
  /-- The quotient, always a real. -/
  | divide
  /-- The quotient rounded down. -/
  | floorDivide
  /-- The remainder of the quotient rounded down; it has the sign of the divisor. -/
  | modulo
  /-- The power. -/
  | power
  deriving DecidableEq

namespace Operator

/-- All operators. -/
def all : List Operator := [add, subtract, multiply, divide, floorDivide, modulo, power]

/-- The symbol of an operator. -/
def symbol : Operator → String
  | add => "+"
  | subtract => "-"
  | multiply => "*"
  | divide => "/"
  | floorDivide => "//"
  | modulo => "%"
  | power => "**"

/-- The operator with a given symbol. -/
def ofSymbol? (s : String) : Option Operator := all.find? fun o => o.symbol = s

end Operator

end Roman
