import Roman.Decimal.Shortest

/-!
# The text of reals

A real is a double. Its text has the shortest digits that name it; where an
exponent is written and whether a whole number shows a point is decided by a
`Layout`. Values are written with the layout `Layout.value`, and the reals inside
messages with `Layout.message`.
-/

namespace Roman

/-- How the digits of a real are laid out. -/
structure Layout where
  /-- Whether a real whose first digit has the given power of ten is written
  positionally. -/
  isPositional : Int → Bool
  /-- Whether a whole number has one zero after its point. -/
  pointZero : Bool

/-- A value is written positionally from a ten-thousandth up to below ten to the
sixteenth, and always with a digit after the point. -/
def Layout.value : Layout := ⟨fun magnitude => -4 ≤ magnitude && magnitude < 16, true⟩

/-- Inside a message a real is written positionally, and a whole number has no
point. -/
def Layout.message : Layout := ⟨fun _ => true, false⟩

/-- The text of a decimal. -/
def Layout.decimal (layout : Layout) (d : Decimal) : String :=
  if layout.isPositional d.magnitude then d.positional layout.pointZero else d.scientific

/-- The text of a real: a sign unless it is positive, then its shortest digits. -/
def Layout.real (layout : Layout) (x : Float) : String :=
  let bits := x.toBits.toNat
  let sign := if bits / Nat.pow 2 63 = 1 then "-" else ""
  let exponent := bits / Nat.pow 2 52 % Nat.pow 2 11
  let fraction := bits % Nat.pow 2 52
  if exponent = 2047 then
    if fraction = 0 then sign ++ "inf" else "NaN"
  else if exponent = 0 ∧ fraction = 0 then
    sign ++ layout.decimal ⟨0, 0⟩
  else
    sign ++ layout.decimal (Interval.ofFields exponent fraction).shortest

end Roman
