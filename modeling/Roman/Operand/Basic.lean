import Roman.Numeral

/-!
# Operands

What comparison and arithmetic work on: a numeral, a numeral that was given as
text, or a plain integer of 64 bits. A numeral given as text keeps its own shape,
because some pairs of operands treat it differently.
-/

namespace Roman

/-- An operand of comparison and arithmetic. -/
inductive Operand where
  /-- A numeral. -/
  | numeral (n : Numeral)
  /-- A numeral given as text. -/
  | text (n : Numeral)
  /-- A plain integer. -/
  | plain (i : Int64)
  deriving DecidableEq

namespace Operand

/-- The number an operand stands for. -/
def decimal : Operand → Int
  | numeral n => n.decimal
  | text n => n.decimal
  | plain i => i.toInt

/-- Whether an operand is a numeral, given as text or not. -/
def isNumeralShaped : Operand → Bool
  | numeral _ => true
  | text _ => true
  | plain _ => false

/-- The name of the shape of an operand. -/
def shape : Operand → String
  | numeral _ => "numeral"
  | text _ => "text"
  | plain _ => "integer"

/-- The text an operand is shown as; text stands in quotes. -/
def toText : Operand → String
  | numeral n => n.canonical
  | text n => "\"" ++ n.canonical ++ "\""
  | plain i => toString i.toInt

end Operand

end Roman
