import Roman.CommandLine.Arguments
import Roman.Numeral
import Roman.Text.Digits

/-!
# Requests

What a command line asks for. The first argument names the command; the others are
told apart by the form of the command and have to be complete.
-/

namespace Roman

/-- What is asked for. -/
inductive Request where
  /-- Convert an integer to a numeral. -/
  | toNumeral (number : Int)
  /-- Convert a numeral to an integer. -/
  | fromNumeral (numeral : String)
  /-- Run a script: the contents of a file, or the text itself. -/
  | run (fromFile : Bool) (contents : String)
  /-- Run the lines of standard input one by one. -/
  | repl
  /-- Replace numerals in a text by decimals, or decimals by numerals. -/
  | replace (toNumerals : Bool) (text : String)
  /-- Draw a numeral between two bounds. -/
  | random (least greatest : Int)
  deriving DecidableEq

namespace Request

/-- The form of commands that take an integer, which may have a minus sign. -/
def integerForm : Form := ⟨[], [], true⟩

/-- The form of commands without flags and options. -/
def plainForm : Form := ⟨[], [], false⟩

/-- The form of the command that runs a script. -/
def runForm : Form := ⟨["-f", "--file"], [], false⟩

/-- The form of the command that replaces in a text. -/
def replaceForm : Form := ⟨["-t", "--to-numerals"], [], false⟩

/-- The form of the command that draws. -/
def randomForm : Form := ⟨[], ["--min", "--max"], false⟩

/-- The request of a command line, if it is a proper one. -/
def parse? : List String → Option Request
  | "to-numeral" :: rest => do
    let arguments ← integerForm.read? rest
    return toNumeral (← integer? (← arguments.single?))
  | "from-numeral" :: rest => do
    let arguments ← plainForm.read? rest
    return fromNumeral (← arguments.single?)
  | "run" :: rest => do
    let arguments ← runForm.read? rest
    return run (← arguments.flag?) (← arguments.single?)
  | "repl" :: rest => do
    let arguments ← plainForm.read? rest
    if arguments.plain = [] then some repl else none
  | "replace" :: rest => do
    let arguments ← replaceForm.read? rest
    return replace (← arguments.flag?) (← arguments.single?)
  | "random" :: rest => do
    let arguments ← randomForm.read? rest
    let least ← integer? (← arguments.option? "--min" (toString Numeral.lowest))
    let greatest ← integer? (← arguments.option? "--max" (toString Numeral.highest))
    if arguments.plain = [] then some (random least greatest) else none
  | _ => none

end Request

end Roman
