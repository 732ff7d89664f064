import Roman.Operator

/-!
# Keywords

The seven words that a statement can begin with. Each belongs to a category, which
says what is done with the arguments, and those of arithmetic name an operator.
-/

namespace Roman

/-- What a statement does with its arguments. -/
inductive Category where
  /-- It sets a variable. -/
  | assignment
  /-- It computes. -/
  | arithmetic
  /-- It turns a numeral into an integer or back. -/
  | conversion
  /-- It shows a value as text. -/
  | display
  deriving DecidableEq

/-- The name of a category. -/
def Category.name : Category → String
  | assignment => "Assignment"
  | arithmetic => "Arithmetic"
  | conversion => "Conversion"
  | display => "Display"

/-- The first word of a statement. -/
inductive Keyword where
  | set
  | add
  | subtract
  | multiply
  | divide
  | convert
  | display
  deriving DecidableEq

namespace Keyword

/-- All keywords. -/
def all : List Keyword := [set, add, subtract, multiply, divide, convert, display]

/-- The word that a keyword is written as. -/
def word : Keyword → String
  | set => "set"
  | add => "add"
  | subtract => "subtract"
  | multiply => "multiply"
  | divide => "divide"
  | convert => "convert"
  | display => "display"

/-- The keyword that a word is, if it is one. -/
def ofWord? (word : String) : Option Keyword := all.find? fun k => k.word = word

/-- The category of a keyword. -/
def category : Keyword → Category
  | set => .assignment
  | add | subtract | multiply | divide => .arithmetic
  | convert => .conversion
  | display => .display

theorem category_eq_assignment_iff {k : Keyword} : k.category = .assignment ↔ k = set := by
  cases k <;> decide

/-- The operator of a keyword of arithmetic. -/
def operator? : Keyword → Option Operator
  | add => some .add
  | subtract => some .subtract
  | multiply => some .multiply
  | divide => some .divide
  | set | convert | display => none

end Keyword

end Roman
