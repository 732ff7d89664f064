import Roman.Fault

/-!
# Conversion

Between integers and the texts of numerals, with errors of its own: the input has
no counterpart, or the bounds of a draw make no sense.
-/

namespace Roman

/-- Why bounds make no sense. -/
inductive BoundsError where
  /-- A bound has no numeral. -/
  | outOfRange (least greatest : Int)
  /-- The lower bound is above the upper one. -/
  | reversed (least greatest : Int)
  deriving DecidableEq

/-- Bad bounds in words. -/
def BoundsError.message : BoundsError → String
  | outOfRange least greatest =>
    s!"values must be between {Numeral.lowest} and {Numeral.highest}, found {least} and {greatest}"
  | reversed least greatest => s!"minimum {least} cannot be greater than maximum {greatest}"

/-- Why a conversion fails. -/
inductive ConversionError where
  /-- The input has no counterpart. -/
  | invalidInput (fault : Fault)
  /-- The bounds of a draw make no sense. -/
  | invalidBounds (cause : BoundsError)
  deriving DecidableEq

/-- A failed conversion in words. -/
def ConversionError.message : ConversionError → String
  | invalidInput fault => s!"Invalid input: {fault.message}"
  | invalidBounds cause => s!"Invalid bounds: {cause.message}"

/-- The canonical form of the numeral of an integer. -/
def toNumeral (n : Int) : Except ConversionError String :=
  ((Numeral.ofInt n).map Numeral.canonical).mapError .invalidInput

/-- The integer of the numeral that a text spells. -/
def fromNumeral (text : String) : Except ConversionError Int :=
  ((Numeral.ofText text).map fun n => (n.decimal : Int)).mapError .invalidInput

end Roman
