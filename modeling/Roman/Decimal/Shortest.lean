import Roman.Decimal.Basic

/-!
# Shortest decimals

A floating-point number stands for all the reals that round to it, and it is
written with the fewest digits that name one of them; of two such decimals the
nearer is taken, and of two equally near ones the larger. Everything is exact
arithmetic on naturals: the number and the ends of its interval are kept over one
denominator.
-/

namespace Roman

/-- A positive real and the interval of the reals that round to it, over a common
denominator. -/
structure Interval where
  /-- The real itself. -/
  centre : Nat
  /-- The lower end. -/
  lower : Nat
  /-- The upper end. -/
  upper : Nat
  /-- What the three are divided by. -/
  denominator : Nat
  /-- Whether the ends belong to the interval. -/
  closed : Bool

namespace Interval

/-- The interval of the double whose exponent field is `exponent` and whose fraction
field is `fraction`. The ends belong to it when the significand is even, and the
lower half is half as wide when the double is a power of two. -/
def ofFields (exponent fraction : Nat) : Interval :=
  let significand := if exponent = 0 then fraction else Nat.pow 2 52 + fraction
  let below := if fraction = 0 ∧ 1 < exponent then 1 else 2
  let power : Int := (max exponent 1 : Nat) - 1077
  let scale := Nat.pow 2 power.toNat
  { centre := 4 * significand * scale
    lower := (4 * significand - below) * scale
    upper := (4 * significand + 2) * scale
    denominator := Nat.pow 2 (-power).toNat
    closed := significand % 2 = 0 }

/-- The interval divided by a power of ten. -/
def divPow (i : Interval) (k : Int) : Interval :=
  let scale := Nat.pow 10 (-k).toNat
  { i with
    centre := i.centre * scale
    lower := i.lower * scale
    upper := i.upper * scale
    denominator := i.denominator * Nat.pow 10 k.toNat }

/-- Whether a natural number lies in the interval. -/
def holds (i : Interval) (n : Nat) : Bool :=
  let x := n * i.denominator
  if i.closed then i.lower ≤ x && x ≤ i.upper else i.lower < x && x < i.upper

/-- The natural number in the interval that is nearest to its centre, the larger
one if two are. -/
def nearest? (i : Interval) : Option Nat :=
  let down := i.centre / i.denominator
  match i.holds down, i.holds (down + 1) with
  | true, true => if 2 * i.centre < (2 * down + 1) * i.denominator then some down else some (down + 1)
  | true, false => some down
  | false, true => some (down + 1)
  | false, false => none

/-- The power of ten of the first digit of the centre. -/
def magnitude (i : Interval) : Int :=
  let length (n : Nat) : Int := (Nat.toDigits 10 n).length
  if i.denominator ≤ i.centre then length (i.centre / i.denominator) - 1
  else -length ((i.denominator - 1) / i.centre)

/-- The shortest decimal in the interval: the nearest one with the first number of
digits, up to seventeen, for which there is one. -/
def shortest (i : Interval) : Decimal :=
  let candidate (n : Nat) : Option Decimal :=
    ((i.divPow (i.magnitude - n)).nearest?).map (⟨·, i.magnitude - n⟩)
  (((List.range 17).findSome? candidate).getD ⟨0, 0⟩).trim

end Interval

end Roman
