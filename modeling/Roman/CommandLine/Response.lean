import Roman.CommandLine.Request
import Roman.Draw
import Roman.Script.Execution
import Roman.Text.Substitution

/-!
# Responses

What is written in answer to a request, and the exit code. Results go to standard
output, errors to standard error, one to a line. The exit code is 0 if all went
well, 1 if something failed, and 2 if the command line is no proper request.

A script is run as a whole. Standard input is read line by line, and each line is
run before the next one is read (`Response.converse`); what fails there does not
change the exit code.
-/

namespace Roman

/-- What a program writes, and its exit code. -/
structure Response where
  /-- The exit code. -/
  exit : Nat
  /-- What goes to standard output. -/
  output : String
  /-- What goes to standard error. -/
  errors : String
  deriving DecidableEq

/-- What a request is answered from. -/
structure Surroundings where
  /-- The contents of a file that can be read. -/
  readFile : String → Option String
  /-- What stands in standard input. -/
  input : String
  /-- The source of random words. -/
  randomWords : List UInt64

/-- Texts with a line feed after each. -/
def unlines (texts : List String) : String := String.join (texts.map fun text => text ++ "\n")

namespace Response

/-- The response to a command line that is no proper request. -/
def usage : Response :=
  ⟨2, "", unlines ["Usage:", "  to-numeral NUMBER", "  from-numeral NUMERAL", "  run [--file] CONTENTS",
    "  repl", "  replace [--to-numerals] TEXT", "  random [--min MIN] [--max MAX]"]⟩

/-- The response with one result. -/
def result (text : String) : Response := ⟨0, unlines [text], ""⟩

/-- The response with one error. -/
def failure (message : String) : Response := ⟨1, "", unlines [message]⟩

/-- The response to a conversion. -/
def ofConversion {α : Type} (toText : α → String) : Except ConversionError α → Response
  | .ok a => result (toText a)
  | .error error => failure error.message

/-- The response to a script: its results and its failures. -/
def ofScript (source : String) : Response :=
  let execution := (Run.ofScript source).execution
  { exit := if execution.isSuccess then 0 else 1
    output := unlines (execution.results.map Value.toText)
    errors := unlines (execution.failures.map Failure.message) }

end Response

/-! ### Standard input line by line -/

/-- What is written before a line is read. -/
def prompt : String := "> "

/-- What is written for one line of standard input. -/
structure Exchange where
  /-- What goes to standard output. -/
  output : String
  /-- What goes to standard error. -/
  errors : String
  /-- The store afterwards. -/
  store : Store

/-- Runs one line of standard input. -/
def Exchange.ofLine (line : String) (s : Store) : Exchange :=
  let run := Run.ofLine line s
  { output := unlines (run.execution.results.map fun value => s!"Result: {value.toText}")
    errors := unlines (run.execution.failures.map Failure.message)
    store := run.store }

/-- What is written while an input is read and run line by line. Each line is read
after a prompt, and so is the end of the input. -/
def Response.converse (input : List Char) (s : Store) : Response :=
  match _h : nextLine? input with
  | none => ⟨0, prompt ++ "\n", ""⟩
  | some (line, rest) =>
    let exchange := Exchange.ofLine (String.ofList line) s
    let after := converse rest exchange.store
    ⟨after.exit, prompt ++ exchange.output ++ after.output, exchange.errors ++ after.errors⟩
termination_by input.length
decreasing_by exact length_lt_of_nextLine? _h

/-! ### All requests -/

/-- The response to a request. -/
def Request.respond (s : Surroundings) : Request → Response
  | toNumeral number => .ofConversion id (Roman.toNumeral number)
  | fromNumeral numeral => .ofConversion toString (Roman.fromNumeral numeral)
  | run false contents => .ofScript contents
  | run true path =>
    match s.readFile path with
    | some contents => .ofScript contents
    | none =>
      .failure s!"Failed to read the input file '{path}'. Perhaps this file does not exist?"
  | repl => .converse s.input.toList .empty
  | replace true text => .result (decimalsToNumerals text)
  | replace false text => .result (numeralsToDecimals text)
  | random least greatest =>
    .ofConversion (fun drawn => s!"{drawn.numeral} {drawn.decimal}")
      (Draw.between least greatest s.randomWords)

/-- The response to a command line. -/
def respond (s : Surroundings) (arguments : List String) : Response :=
  match Request.parse? arguments with
  | some request => request.respond s
  | none => .usage

end Roman
