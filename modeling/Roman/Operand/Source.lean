import Roman.Fault

/-!
# Sources of operands

An operand is given as a value or as an operand already. A value is coerced: text
has to spell a numeral, and a real is refused.
-/

namespace Roman

/-- The operand that a value is taken as. -/
def Operand.ofValue : Value → Except Fault Operand
  | .numeral n => .ok (.numeral n)
  | .integer i => .ok (.plain i)
  | .text s => (Numeral.ofText s).map .text
  | .real x => .error (.mismatch (.realOperand x))

/-- What an operand can be given as. -/
inductive Operand.Source where
  /-- A value, still to be coerced. -/
  | value (v : Value)
  /-- An operand. -/
  | operand (o : Operand)

/-- The operand that a source gives. -/
def Operand.Source.coerce : Operand.Source → Except Fault Operand
  | value v => Operand.ofValue v
  | operand o => .ok o

end Roman
