import Roman.Conversion

/-!
# Drawing numerals

A number below a given one is drawn from a source of words of 64 bits. A word times
the number of possible results is a product of 128 bits, whose upper half is the
result; a word whose lower half lies above the zone is rejected and the next word
taken, so that all results are equally likely. A source that has come to its end
gives zeros, and zero is never rejected (`Draw.resultOf?_zero`).
-/

namespace Roman

/-- What a draw gives. -/
structure Draw where
  /-- The canonical form of the number drawn. -/
  numeral : String
  /-- The number drawn. -/
  decimal : Int
  /-- How many words it took. -/
  words : Nat
  deriving DecidableEq

namespace Draw

/-- How many words of 64 bits there are. -/
def wordCount : Nat := Nat.pow 2 64

/-- The greatest lower half that is accepted: the number of possible results, shifted
so far to the left that the highest bit of a word is set, less one. -/
def zone (range : Nat) : Nat := range * Nat.pow 2 (63 - range.log2) - 1

/-- The result of a word, if it is not rejected. -/
def resultOf? (range : Nat) (word : UInt64) : Option Nat :=
  let product := word.toNat * range
  if product % wordCount ≤ zone range then some (product / wordCount) else none

/-- Zero is accepted, and its result is zero. -/
theorem resultOf?_zero (range : Nat) : resultOf? range 0 = some 0 := by
  simp [resultOf?]

/-- Draws a number below `range`, and counts the words that this takes. -/
def below (range : Nat) : List UInt64 → Nat × Nat
  | [] => (0, 1)
  | word :: words =>
    match resultOf? range word with
    | some n => (n, 1)
    | none =>
      let rest := below range words
      (rest.1, rest.2 + 1)

/-- Draws a number between two bounds, both included. The bounds are checked before
any word is taken. -/
def between (least greatest : Int) (words : List UInt64) : Except ConversionError Draw :=
  let inRange (n : Int) : Bool := Numeral.lowest ≤ n && n ≤ Numeral.highest
  if !inRange least || !inRange greatest then .error (.invalidBounds (.outOfRange least greatest))
  else if greatest < least then .error (.invalidBounds (.reversed least greatest))
  else
    let drawn := below (greatest - least + 1).toNat words
    let n := least + drawn.1
    (toNumeral n).map (⟨·, n, drawn.2⟩)

end Draw

end Roman
