import Roman.Script.Command
import Roman.Script.Variable

/-!
# Records

While statements are carried out, a journal is kept of what happens: which
statement is carried out, what its tokens stand for, what is set and bound, and
which statements fail. Resolving a token is a detail of its own level.
-/

namespace Roman

/-- A statement that failed. -/
structure Failure where
  /-- The text of the statement. -/
  statement : String
  /-- Why it failed. -/
  error : StatementError
  deriving DecidableEq

/-- A failed statement in words. -/
def Failure.message (f : Failure) : String := s!"Error in command '{f.statement}': {f.error.message}"

/-- The levels of detail of a journal. -/
inductive Level where
  | debug
  | trace
  deriving DecidableEq

/-- The name of a level. -/
def Level.name : Level → String
  | debug => "DEBUG"
  | trace => "TRACE"

/-- An entry of the journal. -/
inductive Record where
  /-- A statement is a command of the category. -/
  | dispatching (statement : String) (category : Category)
  /-- A token stands for the value. -/
  | resolved (token : String) (value : Value)
  /-- A name is to be set to what the token stands for. -/
  | setting (name token : String)
  /-- A variable is stored. -/
  | binding (bound : Variable)
  /-- A statement failed. -/
  | failed (failure : Failure)
  deriving DecidableEq

namespace Record

/-- The level of a record. -/
def level : Record → Level
  | resolved _ _ => .trace
  | dispatching _ _ => .debug
  | setting _ _ => .debug
  | binding _ => .debug
  | failed _ => .debug

/-- A record in words. -/
def message : Record → String
  | dispatching statement category => s!"dispatching '{statement}' as {category.name}"
  | resolved token value => s!"resolved '{token}' to {value.toText}"
  | setting name token => s!"set {name} to '{token}'"
  | binding bound => s!"binding {bound.toText} ({bound.kind.name})"
  | failed failure => failure.message

/-- The line of a record in the journal. -/
def toText (r : Record) : String := s!"{r.level.name} {r.message}"

end Record

end Roman
