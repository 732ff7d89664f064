/-!
# Lines

A text is cut into lines at its line feeds. A carriage return right before a line
feed belongs to the end of the line; any other one is an ordinary character. A line
feed at the very end of a text opens no further line.

A text that is given as a whole is cut all at once (`lines`). Of an input that is
read piece by piece, only the next line is taken (`nextLine?`).
-/

namespace Roman

/-- A line without the carriage return at its end. -/
def dropReturn (line : List Char) : List Char :=
  if line.getLast? = some '\r' then line.dropLast else line

/-- The lines of a list of characters: what line feeds end, and what follows the last
of them if it is not empty. -/
def linesOfChars (cs : List Char) : List (List Char) :=
  let pieces := cs.splitOn '\n'
  pieces.dropLast.map dropReturn ++ [pieces.getLastD []].filter (· ≠ [])

/-- The lines of a text. -/
def lines (text : String) : List String := (linesOfChars text.toList).map String.ofList

/-- The next line of an input and what is left of the input after it; there is none
at the end of the input. -/
def nextLine? (input : List Char) : Option (List Char × List Char) :=
  if input = [] then none
  else
    let line := input.takeWhile (· ≠ '\n')
    match input.dropWhile (· ≠ '\n') with
    | [] => some (line, [])
    | _ :: rest => some (dropReturn line, rest)

theorem length_lt_of_nextLine? {input line rest : List Char}
    (h : nextLine? input = some (line, rest)) : rest.length < input.length := by
  rw [nextLine?] at h
  split at h
  next => cases h
  next hne =>
    have hle := (List.dropWhile_sublist (· ≠ '\n') (l := input)).length_le
    dsimp only at h
    split at h
    next =>
      cases h
      exact List.length_pos_iff.mpr hne
    next c after hdrop =>
      cases h
      rw [hdrop, List.length_cons] at hle
      omega

end Roman
