import Roman.Numeral
import Roman.Text.Digits
import Roman.Text.Word

/-!
# Substitution in texts

A text is cut into runs: words, which are as long as possible, and the gaps between
them. A substitution looks at each word as a whole and replaces it or keeps it; gaps
are kept as they are. Two substitutions are defined: of numerals by their decimals,
and of decimals by their numerals.
-/

namespace Roman

/-- The runs of a text: the longest stretches of word characters only and of other
characters only. -/
def runs (cs : List Char) : List (List Char) := cs.splitBy fun a b => isWordChar a == isWordChar b

/-- Replaces a run if it is a word for which there is a replacement. -/
def replaceRun (replacement : String → Option String) (run : List Char) : List Char :=
  match run with
  | [] => []
  | c :: _ =>
    if isWordChar c then ((replacement (String.ofList run)).map String.toList).getD run else run

/-- Replaces the words of a text for which there is a replacement. -/
def substitute (replacement : String → Option String) (text : String) : String :=
  String.ofList ((runs text.toList).map (replaceRun replacement)).flatten

/-- The decimal digits of a word that is a numeral. -/
def decimalOfWord? (word : String) : Option String :=
  match Numeral.parse word with
  | .ok n => some (toString n.decimal)
  | .error _ => none

/-- The numeral of a word that is a decimal with a numeral. A decimal does not begin
with zero. -/
def numeralOfWord? (word : String) : Option String :=
  if word.toList.head? = some '0' then none
  else do
    let n ← natural? word
    let numeral ← Numeral.ofInt? n
    return numeral.canonical

/-- A text with its numerals replaced by decimals. -/
def numeralsToDecimals : String → String := substitute decimalOfWord?

/-- A text with its decimals replaced by numerals. -/
def decimalsToNumerals : String → String := substitute numeralOfWord?

end Roman
