import Roman.Text.Blank

/-!
# Tokens

A line is a sequence of words and separators. Blanks end a word and are dropped; a
separator is a semicolon, with or without blanks around it; every other character is
part of a word. The words of a statement are its tokens, of which only the last may
be a separator.
-/

namespace Roman

/-- Whether a character separates statements. -/
def isSeparator (c : Char) : Bool := c = ';'

/-- Whether a character is part of a token's word. -/
def isWordPart (c : Char) : Bool := !isBlank c && !isSeparator c

/-- A token of a line. -/
inductive Token where
  /-- The end of a statement. -/
  | separator
  /-- A word. -/
  | word (text : String)
  deriving DecidableEq

theorem length_dropWhile_le {α : Type} (p : α → Bool) (l : List α) : (l.dropWhile p).length ≤ l.length :=
  (List.dropWhile_sublist p).length_le

/-- The tokens of a list of characters. -/
def tokens : List Char → List Token
  | [] => []
  | c :: cs =>
    if isSeparator c then .separator :: tokens cs
    else if isBlank c then tokens cs
    else .word (String.ofList (c :: cs.takeWhile isWordPart)) :: tokens (cs.dropWhile isWordPart)
termination_by cs => cs.length
decreasing_by
  · simp
  · simp
  · exact Nat.lt_succ_of_le (length_dropWhile_le _ _)

/-- The word of a token, if it is one. -/
def Token.word? : Token → Option String
  | separator => none
  | word text => some text

/-- A list of tokens without the separator at its end. -/
def dropSeparator (ts : List Token) : List Token :=
  if ts.getLast? = some .separator then ts.dropLast else ts

/-- The words of a statement; there are none to give if a separator stands anywhere
but at its end. -/
def words? (statement : String) : Option (List String) :=
  (dropSeparator (tokens statement.toList)).mapM Token.word?

/-! ### Statements -/

/-- The statements of a line: what stands between separators, without the white
space around it and unless nothing is left. -/
def statements (line : String) : List String :=
  (((line.toList.splitOn ';').map trim).filter (· ≠ [])).map String.ofList

end Roman
