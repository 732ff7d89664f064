import Roman.Script.StatementError
import Roman.Script.Token

/-!
# Commands

A command is a keyword with its arguments, at least one. The checks of a statement
come in a fixed order: it is a single one, it has two words, and its first word is a
keyword. How many arguments a command takes is asked only when it is carried out.
-/

namespace Roman

/-- A keyword with its arguments. -/
structure Command where
  /-- What to do. -/
  keyword : Keyword
  /-- What to do it with. -/
  arguments : List String
  deriving DecidableEq

namespace Command

/-- The category of a command. -/
def category (c : Command) : Category := c.keyword.category

/-- The command with the given words. -/
def ofWords : List String → Except StatementError Command
  | word :: argument :: arguments =>
    (Keyword.parse word).map (⟨·, argument :: arguments⟩)
  | _ => .error (.malformed .tooShort)

/-- The command that a statement is. -/
def parse (statement : String) : Except StatementError Command :=
  match words? statement with
  | some ws => ofWords ws
  | none => .error (.malformed .severalStatements)

/-- The arguments of a command, if there are exactly `n`. -/
def exactly (n : Nat) (c : Command) : Except StatementError (Vector String n) :=
  if h : c.arguments.length = n then .ok ⟨c.arguments.toArray, by simpa using h⟩
  else .error (.malformed (.wrongCount c.keyword n c.arguments.length))

end Command

end Roman
