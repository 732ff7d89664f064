/-!
# Digits

Numbers written with the ten ASCII digits and with no blank. Any number of zeros may
stand in front.
-/

namespace Roman

/-- Whether a text is one or more digits and nothing else. -/
def isDigits (text : String) : Bool := !text.toList.isEmpty && text.toList.all Char.isDigit

theorem isDigits_iff {text : String} :
    isDigits text = true ↔ text ≠ "" ∧ ∀ c ∈ text.toList, c.isDigit = true := by
  rw [isDigits, Bool.and_eq_true, Bool.not_eq_true', List.isEmpty_eq_false_iff, List.all_eq_true,
    ne_eq, String.toList_eq_nil_iff]

/-- The number that digits stand for. -/
def ofDigits (text : String) : Nat := Nat.ofDigitChars 10 text.toList 0

/-- The number that a text of digits stands for. -/
def natural? (text : String) : Option Nat := if isDigits text then some (ofDigits text) else none

/-- The integer of 64 bits that a text stands for: digits, with or without a sign in
front. -/
def integer? (text : String) : Option Int :=
  let bounded (n : Int) : Option Int :=
    if Int64.minValue.toInt ≤ n ∧ n ≤ Int64.maxValue.toInt then some n else none
  match text.toList with
  | '-' :: digits => (natural? (String.ofList digits)).bind fun n => bounded (-n)
  | '+' :: digits => (natural? (String.ofList digits)).bind fun n => bounded n
  | _ => (natural? text).bind fun n => bounded n

end Roman
