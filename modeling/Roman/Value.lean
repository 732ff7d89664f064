import Roman.Decimal.Real
import Roman.Numeral

/-!
# Values

What arithmetic and statements produce: numerals, integers of 64 bits, reals and
texts. Every value has a kind and a text.
-/

namespace Roman

/-- The kinds of values. -/
inductive Kind where
  | numeral
  | integer
  | real
  | text
  deriving DecidableEq

/-- The name of a kind. -/
def Kind.name : Kind → String
  | numeral => "numeral"
  | integer => "integer"
  | real => "real"
  | text => "text"

/-- A value. -/
inductive Value where
  /-- A Roman numeral. -/
  | numeral (n : Numeral)
  /-- An integer of 64 bits. -/
  | integer (i : Int64)
  /-- A real. -/
  | real (x : Float)
  /-- A text, of any characters. -/
  | text (s : String)
  deriving DecidableEq

namespace Value

/-- The kind of a value. -/
def kind : Value → Kind
  | numeral _ => .numeral
  | integer _ => .integer
  | real _ => .real
  | text _ => .text

/-- The numeral that a value is, if it is one. -/
def numeral? : Value → Option Numeral
  | numeral n => some n
  | _ => none

/-- The text a value is shown as. -/
def toText : Value → String
  | numeral n => n.canonical
  | integer i => toString i.toInt
  | real x => Layout.value.real x
  | text s => s

end Value

end Roman
