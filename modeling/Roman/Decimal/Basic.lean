/-!
# Decimals

A decimal is a whole coefficient times a power of ten. It is written either
positionally, with zeros up to or after the point, or scientifically, with one
digit before the point and the power of ten after an `e`.
-/

namespace Roman

/-- The number `coefficient * 10 ^ exponent`. -/
structure Decimal where
  /-- The digits of the number. -/
  coefficient : Nat
  /-- The power of ten of the last digit. -/
  exponent : Int
  deriving DecidableEq

namespace Decimal

/-- The digits of the coefficient. -/
def digits (d : Decimal) : List Char := Nat.toDigits 10 d.coefficient

/-- The power of ten of the first digit. -/
def magnitude (d : Decimal) : Int := d.exponent + d.digits.length - 1

/-- The same number with no zero at the end of its coefficient. -/
def trim (d : Decimal) : Decimal :=
  if h : d.coefficient ≠ 0 ∧ d.coefficient % 10 = 0 then trim ⟨d.coefficient / 10, d.exponent + 1⟩
  else d
termination_by d.coefficient
decreasing_by exact Nat.div_lt_self (Nat.pos_of_ne_zero h.1) (by decide)

/-- The positional form; `pointZero` says whether a whole number gets one zero after
the point. -/
def positional (pointZero : Bool) (d : Decimal) : String :=
  let zeros (n : Nat) := List.replicate n '0'
  let places := (-d.exponent).toNat
  let whole := d.digits.length - places
  if places = 0 then
    String.ofList (d.digits ++ zeros d.exponent.toNat ++ if pointZero then ['.', '0'] else [])
  else if whole = 0 then
    String.ofList (['0', '.'] ++ zeros (places - d.digits.length) ++ d.digits)
  else
    String.ofList (d.digits.take whole ++ '.' :: d.digits.drop whole)

/-- The scientific form; there is a point only if digits follow it. -/
def scientific (d : Decimal) : String :=
  let fraction := match d.digits.drop 1 with
    | [] => []
    | rest => '.' :: rest
  String.ofList (d.digits.take 1 ++ fraction) ++ "e" ++ toString d.magnitude

end Decimal

end Roman
