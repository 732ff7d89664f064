import Roman.Script.Handling
import Roman.Text.Lines

/-!
# Execution

A statement is parsed and carried out in the category of its keyword. A line is
carried out statement by statement: a statement that fails is noted and does not
stop the line, and the next one works on the store that is left. A script is carried
out line by line.
-/

namespace Roman

/-- Carries out one statement. -/
def executeStatement (statement : String) : Action (Option Value) := do
  let command ← Action.lift (Command.parse statement)
  Action.record (.dispatching statement command.category)
  command.handle command.category

/-- What comes of carrying out statements. -/
structure Execution where
  /-- The values of the statements that have one, in order. -/
  results : List Value
  /-- The statements that failed, in order. -/
  failures : List Failure
  deriving DecidableEq

namespace Execution

/-- No statement carried out. -/
def empty : Execution := ⟨[], []⟩

/-- One execution after another. -/
def append (first second : Execution) : Execution :=
  ⟨first.results ++ second.results, first.failures ++ second.failures⟩

/-- Whether no statement failed. -/
def isSuccess (e : Execution) : Bool := e.failures.isEmpty

end Execution

/-- An execution with the store it leaves and the records it writes. -/
structure Run where
  /-- The values and the failures. -/
  execution : Execution
  /-- The store afterwards. -/
  store : Store
  /-- What was recorded, in order. -/
  records : List Record
  deriving DecidableEq

namespace Run

/-- A statement as a run of its own, in which an error is a failure. -/
def ofStatement (statement : String) (s : Store) : Run :=
  let step := executeStatement statement s
  match step.outcome with
  | .ok (some value) => ⟨⟨[value], []⟩, step.store, step.records⟩
  | .ok none => ⟨.empty, step.store, step.records⟩
  | .error error =>
    let failure : Failure := ⟨statement, error⟩
    ⟨⟨[], [failure]⟩, step.store, step.records ++ [.failed failure]⟩

/-- The runs of several texts, one after the other, each on the store that the one
before it leaves. -/
def inOrder (run : String → Store → Run) : List String → Store → Run
  | [], s => ⟨.empty, s, []⟩
  | text :: texts, s =>
    let first := run text s
    let rest := inOrder run texts first.store
    ⟨first.execution.append rest.execution, rest.store, first.records ++ rest.records⟩

/-- The run of the statements of a line. -/
def ofLine (line : String) : Store → Run := inOrder ofStatement (statements line)

/-- The run of the lines of a script, from a store without variables. -/
def ofScript (source : String) : Run := inOrder ofLine (lines source) .empty

end Run

end Roman
