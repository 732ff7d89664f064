import Roman.Operand.Source

/-!
# Comparison

A numeral is compared with anything that can be coerced to an operand, by the
numbers they stand for. Beside it are the five relations of a numeral to another
numeral and to an integer, each decided on its own.
-/

namespace Roman

namespace Numeral

/-- The order of a numeral and an operand still to be coerced. -/
def compareWith (a : Numeral) (b : Operand.Source) : Except Fault Ordering := do
  let b ← b.coerce
  return compare (a.decimal : Int) b.decimal

/-- Whether a numeral stands for the same number as an operand still to be
coerced. -/
def equals (a : Numeral) (b : Operand.Source) : Except Fault Bool :=
  return (← a.compareWith b) == .eq

/-- The integer of a numeral. -/
def toInt64 (a : Numeral) : Int64 := Int64.ofNat a.decimal

end Numeral

/-- The five relations in which something can stand to something else. -/
structure Relations where
  /-- It is equal. -/
  equal : Bool
  /-- It is less. -/
  less : Bool
  /-- It is less or equal. -/
  lessOrEqual : Bool
  /-- It is greater. -/
  greater : Bool
  /-- It is greater or equal. -/
  greaterOrEqual : Bool
  deriving DecidableEq

/-- The relations of one numeral to another. -/
def Numeral.relations (a b : Numeral) : Relations :=
  { equal := a = b, less := a < b, lessOrEqual := a ≤ b, greater := b < a, greaterOrEqual := b ≤ a }

/-- The relations of a numeral to an integer, on words of 64 bits. -/
def Numeral.relationsToInteger (a : Numeral) (b : Int64) : Relations :=
  { equal := a.toInt64 = b
    less := a.toInt64 < b
    lessOrEqual := a.toInt64 ≤ b
    greater := b < a.toInt64
    greaterOrEqual := b ≤ a.toInt64 }

end Roman
