import Roman.Fault
import Roman.Script.Keyword

/-!
# Errors of statements

The causes for which a statement fails, and the message of each. A statement may be
malformed, name something that has no value, or ask for an operation that fails; in
the last case the error holds the fault of the operation.
-/

namespace Roman

/-- Why a text is no proper statement. -/
inductive Malformed where
  /-- There is more than one statement. -/
  | severalStatements
  /-- There is no argument. -/
  | tooShort
  /-- The first word is no keyword. -/
  | unknownKeyword (word : String)
  /-- The number of arguments is wrong. -/
  | wrongCount (keyword : Keyword) (expected found : Nat)
  /-- The keyword has no operator. -/
  | notArithmetic (keyword : Keyword)
  deriving DecidableEq

/-- A malformed statement in words. -/
def Malformed.message : Malformed → String
  | severalStatements => "expected a single statement"
  | tooShort => "must have at least 2 parts"
  | unknownKeyword word => s!"unknown operation '{word}'"
  | wrongCount keyword expected found =>
    let plural := if expected = 1 then "" else "s"
    s!"'{keyword.word}' expects {expected} argument{plural}, found {found}"
  | notArithmetic keyword => s!"'{keyword.word}' is not an arithmetic operation"

/-- Why a statement fails. -/
inductive StatementError where
  /-- It is no proper statement. -/
  | malformed (cause : Malformed)
  /-- A token is neither a literal nor the name of a variable. -/
  | unresolved (token : String)
  /-- A name cannot be given to a variable. -/
  | invalidName (name : String)
  /-- An integer literal does not fit into 64 bits. -/
  | literalTooLarge (token : String)
  /-- The operation of a keyword fails. -/
  | operation (keyword : Keyword) (source : Fault)
  /-- A value does not fit where it is used. -/
  | numeral (fault : Fault)
  deriving DecidableEq

/-- A failed statement in words. -/
def StatementError.message : StatementError → String
  | malformed cause => s!"Invalid command - {cause.message}"
  | unresolved token =>
    s!"Invalid value '{token}' - cannot be parsed - " ++
      "Make sure it is a valid Roman numeral, integer or variable"
  | invalidName name => s!"Invalid variable name '{name}' - cannot be a Roman numeral"
  | literalTooLarge token => s!"Literal '{token}' is too large."
  | operation keyword source => s!"Error in operation '{keyword.word}': {source.message}"
  | numeral fault => fault.message

/-- The keyword that a word is; the error holds the word if it is none. -/
def Keyword.parse (word : String) : Except StatementError Keyword :=
  match ofWord? word with
  | some keyword => .ok keyword
  | none => .error (.malformed (.unknownKeyword word))

end Roman
