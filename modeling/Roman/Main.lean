import Roman.CommandLine.Response

/-!
# The program

The command line as a program. It gathers what a request is answered from, and
writes the response. Standard input is read and answered line by line, so that a
dialogue is possible.
-/

namespace Roman

/-- The contents of a file, if it can be read. -/
def readFile? (path : String) : IO (Option String) :=
  try return some (← IO.FS.readFile path) catch _ => return none

/-- Random words, far more than a draw rejects. -/
def randomWords : IO (List UInt64) :=
  (List.range 64).mapM fun _ => do
    let bytes ← IO.getRandomBytes 8
    return bytes.toList.foldl (fun word byte => word * 256 + byte.toUInt64) 0

/-- Answers the lines of standard input until it ends. -/
partial def converse (input output errors : IO.FS.Stream) (s : Store) : IO Unit := do
  output.putStr prompt
  output.flush
  let text ← try input.getLine catch _ => pure ""
  match nextLine? text.toList with
  | none => output.putStr "\n"
  | some (line, _) =>
    let exchange := Exchange.ofLine (String.ofList line) s
    output.putStr exchange.output
    errors.putStr exchange.errors
    converse input output errors exchange.store

/-- Writes a response and gives its exit code. -/
def write (response : Response) : IO UInt32 := do
  (← IO.getStdout).putStr response.output
  (← IO.getStderr).putStr response.errors
  return response.exit.toUInt32

/-- Answers a request from the files, the standard input and the random source of the
system. -/
def answer : Request → IO UInt32
  | .repl => do
    converse (← IO.getStdin) (← IO.getStdout) (← IO.getStderr) .empty
    return 0
  | .run true path => do
    let contents ← readFile? path
    write (Request.respond ⟨fun _ => contents, "", []⟩ (.run true path))
  | .random least greatest => do
    let words ← randomWords
    write (Request.respond ⟨fun _ => none, "", words⟩ (.random least greatest))
  | request => write (request.respond ⟨fun _ => none, "", []⟩)

end Roman

/-- Answers the command line. -/
def main (arguments : List String) : IO UInt32 :=
  match Roman.Request.parse? arguments with
  | some request => Roman.answer request
  | none => Roman.write .usage
