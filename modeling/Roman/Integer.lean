import Roman.Fault

/-!
# Integers of 64 bits

Arithmetic on plain integers. Sums, differences and products are computed exactly
and then narrowed to 64 bits, so that a result that does not fit is reported and
never wrapped (`Integer.narrow`). Division works on the words themselves: the
quotient that is rounded toward zero is corrected to the one rounded down.
-/

namespace Roman.Integer

/-- The word of an exact integer, if it fits into 64 bits. -/
def narrow (n : Int) : Except Fault Int64 :=
  if Int64.minValue.toInt ≤ n ∧ n ≤ Int64.maxValue.toInt then .ok (Int64.ofInt n)
  else .error .overflow

/-- An exact integer is refused if it does not fit into 64 bits, and only then. -/
theorem narrow_eq_error_iff {n : Int} {e : Fault} :
    narrow n = .error e ↔
      e = .overflow ∧ (n < Int64.minValue.toInt ∨ Int64.maxValue.toInt < n) := by
  rw [narrow]
  by_cases h : Int64.minValue.toInt ≤ n ∧ n ≤ Int64.maxValue.toInt
  · rw [if_pos h]
    refine iff_of_false (by simp) fun he => ?_
    have hlarge := he.2
    omega
  · rw [if_neg h]
    constructor
    · intro he
      cases he
      exact ⟨rfl, by omega⟩
    · rintro ⟨rfl, -⟩
      rfl

/-- Whether a quotient that was rounded toward zero lies above the exact one. -/
def isRoundedUp (a b : Int64) : Bool := a % b ≠ 0 && (decide (a < 0) != decide (b < 0))

/-- The quotient rounded down. Only the least integer divided by minus one does not
fit. -/
def floorQuotient (a b : Int64) : Except Fault Int64 :=
  if b = 0 then .error .divisionByZero
  else if a = Int64.minValue ∧ b = -1 then .error .overflow
  else if isRoundedUp a b then .ok (a / b - 1)
  else .ok (a / b)

/-- The remainder of the quotient rounded down, with the sign of the divisor. It is
refused where that quotient is. -/
def floorRemainder (a b : Int64) : Except Fault Int64 :=
  if b = 0 then .error .divisionByZero
  else if a = Int64.minValue ∧ b = -1 then .error .overflow
  else if isRoundedUp a b then .ok (a % b + b)
  else .ok (a % b)

/-- The quotient of two integers as a real; both are rounded to reals first. -/
def realQuotient (a b : Int) : Except Fault Value :=
  if b = 0 then .error .divisionByZero else .ok (.real (Float.ofInt a / Float.ofInt b))

/-! ### Powers -/

/-- A power with an exponent that is not negative. From the exponent 64 on only the
powers of zero, one and minus one fit. -/
def naturalPower (a : Int64) (n : Nat) : Except Fault Int64 :=
  if n < 64 then narrow (Int.pow a.toInt n)
  else if a = 0 then .ok 0
  else if a = 1 then .ok 1
  else if a = -1 then .ok (if n % 2 = 0 then 1 else -1)
  else .error .overflow

/-- Multiplies `r` by the power of `x` with the exponent `n`, by repeated squaring
from the lowest bit of the exponent. -/
def squarings (r x : Float) (n : Nat) : Float :=
  let r := if n % 2 = 1 then r * x else r
  if h : n / 2 = 0 then r else squarings r (x * x) (n / 2)
termination_by n
decreasing_by omega

/-- The greatest exponent of an integer power, the greatest word of 32 bits. -/
def greatestExponent : Int := 4294967295

/-- The least exponent of a real power, the least integer of 32 bits. -/
def leastExponent : Int := -2147483648

/-- The power of two integers: an integer if the exponent is not negative, and else
a real. An exponent out of bounds is an overflow, whatever the base. -/
def power (a b : Int64) : Except Fault Value :=
  if 0 ≤ b.toInt then
    if b.toInt ≤ greatestExponent then (naturalPower a b.toInt.toNat).map .integer
    else .error .overflow
  else if leastExponent ≤ b.toInt then
    .ok (.real (1 / squarings 1 (Float.ofInt a.toInt) b.toInt.natAbs))
  else .error .overflow

/-- Applies an operator to two integers. -/
def apply (operator : Operator) (a b : Int64) : Except Fault Value :=
  match operator with
  | .add => (narrow (a.toInt + b.toInt)).map .integer
  | .subtract => (narrow (a.toInt - b.toInt)).map .integer
  | .multiply => (narrow (a.toInt * b.toInt)).map .integer
  | .divide => realQuotient a.toInt b.toInt
  | .floorDivide => (floorQuotient a b).map .integer
  | .modulo => (floorRemainder a b).map .integer
  | .power => power a b

end Roman.Integer
