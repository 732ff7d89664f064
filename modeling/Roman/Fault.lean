import Roman.Operand.Basic
import Roman.Operator
import Roman.Value

/-!
# Faults

The causes for which making a numeral, comparing or computing fails, and the
message of each.
-/

namespace Roman

/-- Why values do not fit an operation. -/
inductive Mismatch where
  /-- The operator does not take the two operands. -/
  | operands (operator : Operator) (left right : Operand)
  /-- A real is no operand. -/
  | realOperand (x : Float)
  /-- A variable cannot hold a value of the kind. -/
  | unstorable (kind : Kind) (name : String)
  /-- A value of the kind has no conversion. -/
  | unconvertible (kind : Kind)
  deriving DecidableEq

/-- A mismatch in words. -/
def Mismatch.message : Mismatch → String
  | operands operator left right =>
    s!"cannot apply '{operator.symbol}' to {left.shape} {left.toText} and {right.shape} {right.toText}"
  | realOperand x => s!"real value {Layout.message.real x} is not a numeral or an integer"
  | unstorable kind name => s!"cannot store a {kind.name} value in '{name}'"
  | unconvertible kind => s!"cannot convert a {kind.name} value"

/-- Why an operation on numbers fails. -/
inductive Fault where
  /-- A text is not a numeral. -/
  | grammar (input : String) (reason : Rejection)
  /-- A number has no numeral. -/
  | range (value : Int)
  /-- Values do not fit the operation. -/
  | mismatch (cause : Mismatch)
  /-- The divisor is zero. -/
  | divisionByZero
  /-- The result does not fit into 64 bits. -/
  | overflow
  deriving DecidableEq

/-- A fault in words. -/
def Fault.message : Fault → String
  | grammar input reason => s!"Invalid Roman numeral '{input}': {reason.message}."
  | range value =>
    s!"Value {value} is out of range, must be between {Numeral.lowest} and {Numeral.highest}."
  | mismatch cause => s!"Unsupported operation: {cause.message}."
  | divisionByZero => "Division by zero."
  | overflow => "Integer overflow while trying to compute result."

/-! ### Making numerals -/

/-- The numeral of an integer; the fault holds the integer if it has none. -/
def Numeral.ofInt (n : Int) : Except Fault Numeral :=
  match ofInt? n with
  | some m => .ok m
  | none => .error (.range n)

theorem Numeral.ofInt_eq_ok_iff {n : Int} {m : Numeral} : ofInt n = .ok m ↔ (m.decimal : Int) = n := by
  rw [← ofInt?_eq_some_iff, ofInt]
  cases ofInt? n <;> simp

/-- An integer has no numeral if it is out of range, and only then. -/
theorem Numeral.ofInt_eq_error_iff {n : Int} {e : Fault} :
    ofInt n = .error e ↔ e = .range n ∧ (n < 1 ∨ 3999 < n) := by
  rw [ofInt, ofInt?]
  by_cases h : (lowest : Int) ≤ n ∧ n ≤ highest
  · rw [dif_pos h]
    simp only [lowest, highest] at h
    refine iff_of_false (by simp) fun he => ?_
    have hrange := he.2
    omega
  · rw [dif_neg h]
    simp only [lowest, highest] at h
    constructor
    · intro he
      cases he
      exact ⟨rfl, by omega⟩
    · rintro ⟨rfl, -⟩
      rfl

/-- The numeral that a text spells; the fault holds the text if it spells none. -/
def Numeral.ofText (text : String) : Except Fault Numeral :=
  (parse text).mapError (.grammar text)

end Roman
