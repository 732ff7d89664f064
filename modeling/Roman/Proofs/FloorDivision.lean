import Mathlib.Data.Rat.Floor
import Mathlib.Tactic.FieldSimp
import Mathlib.Tactic.Linarith
import Roman.Arithmetic
import Roman.Outcome

/-!
# Division rounded down

The quotient of two integers of 64 bits is rounded toward zero, and so is their remainder; both are
corrected afterwards where the quotient lies above the exact one. The two corrections are made in
the same cases, and afterwards quotient and remainder belong together: they are the ones of the
division rounded down (`Integer.FloorDivides`).

The corrections work on words, and so does the remainder that is asked for on the way. A machine
that stops where a step has no exact result (`Integer.floorQuotient?`, `Integer.floorRemainder?`)
never stops: the only division that does not fit is refused before.
-/

namespace Roman.Integer

/-- The quotient of two integers that is rounded down, and the remainder that belongs to it. -/
structure FloorDivides (a b q r : Int) : Prop where
  /-- Quotient and remainder give the dividend back. -/
  eq : a = b * q + r
  /-- The quotient is the greatest integer up to the exact quotient. -/
  floor : q = ⌊(a : ℚ) / b⌋
  /-- The remainder is zero or has the sign of the divisor. -/
  sign : r = 0 ∨ r.sign = b.sign
  /-- The remainder is nearer to zero than the divisor. -/
  abs_lt : |r| < |b|

/-- A remainder between zero and the divisor belongs to the quotient that is rounded down. -/
theorem floorDivides_of_between {a b q r : Int} (h : a = b * q + r)
    (hr : 0 ≤ r ∧ r < b ∨ b < r ∧ r ≤ 0) : FloorDivides a b q r where
  eq := h
  floor := by
    have hb : (b : ℚ) ≠ 0 := Int.cast_ne_zero.mpr (by omega)
    have hexact : (a : ℚ) / b = q + r / b := by
      rw [h]
      push_cast
      field_simp
    have hfraction : 0 ≤ (r : ℚ) / b ∧ (r : ℚ) / b < 1 := by
      rcases hr with ⟨hlow, hhigh⟩ | ⟨hlow, hhigh⟩
      · have hpos : (0 : ℚ) < b := Int.cast_pos.mpr (by omega)
        exact ⟨div_nonneg (Int.cast_nonneg hlow) hpos.le, (div_lt_one hpos).mpr (Int.cast_lt.mpr hhigh)⟩
      · have hneg : (b : ℚ) < 0 := Int.cast_lt_zero.mpr (by omega)
        exact ⟨div_nonneg_of_nonpos (Int.cast_nonpos.mpr hhigh) hneg.le,
          (div_lt_one_of_neg hneg).mpr (Int.cast_lt.mpr hlow)⟩
    refine (Int.floor_eq_iff.mpr ⟨?_, ?_⟩).symm
    · linarith [hfraction.1]
    · linarith [hfraction.2]
  sign := by
    rcases hr with ⟨hlow, hhigh⟩ | ⟨hlow, hhigh⟩
    · rcases hlow.eq_or_lt with hzero | hpos
      · exact .inl hzero.symm
      · exact .inr (by rw [Int.sign_eq_one_of_pos hpos, Int.sign_eq_one_of_pos (by omega)])
    · rcases hhigh.eq_or_lt with hzero | hneg
      · exact .inl hzero
      · exact .inr (by rw [Int.sign_eq_neg_one_of_neg hneg, Int.sign_eq_neg_one_of_neg (by omega)])
  abs_lt := by
    rcases hr with ⟨hlow, hhigh⟩ | ⟨hlow, hhigh⟩
    · rwa [abs_of_nonneg hlow, abs_of_pos (by omega)]
    · rw [abs_of_nonpos hhigh, abs_of_neg (by omega)]
      omega

/-! ### Words and exact integers -/

/-- An exact integer fits into 64 bits. -/
def Fits (n : Int) : Prop := Int64.minValue.toInt ≤ n ∧ n ≤ Int64.maxValue.toInt

theorem fits_iff {n : Int} : Fits n ↔ -2 ^ 63 ≤ n ∧ n < 2 ^ 63 := by
  rw [Fits, Int64.toInt_minValue, Int64.toInt_maxValue]
  omega

theorem bounds_toInt (i : Int64) : -2 ^ 63 ≤ i.toInt ∧ i.toInt < 2 ^ 63 := ⟨i.le_toInt, i.toInt_lt⟩

theorem fits_toInt (i : Int64) : Fits i.toInt := fits_iff.mpr (bounds_toInt i)

/-- An exact integer is narrowed to the word that stands for it. -/
theorem narrow_eq_ok_iff {n : Int} {i : Int64} : narrow n = .ok i ↔ i.toInt = n := by
  rw [narrow]
  constructor
  · intro h
    split at h
    next hn =>
      cases h
      obtain ⟨hlow, hhigh⟩ := fits_iff.mp hn
      exact Int64.toInt_ofInt_of_le hlow hhigh
    next => cases h
  · rintro rfl
    have hfits : Int64.minValue.toInt ≤ i.toInt ∧ i.toInt ≤ Int64.maxValue.toInt := fits_toInt i
    rw [if_pos hfits, Int64.ofInt_toInt]

/-! ### Truncated quotients and remainders -/

/-- The quotient of words is the exact one, except where it does not fit. -/
theorem toInt_quotient {a b : Int64} (h : ¬ (a = Int64.minValue ∧ b = -1)) :
    (a / b).toInt = a.toInt.tdiv b.toInt := by
  by_cases ha : a = Int64.minValue
  · exact Int64.toInt_div_of_ne_right a b fun hb => h ⟨ha, hb⟩
  · exact Int64.toInt_div_of_ne_left a b ha

/-- A remainder is nearer to zero than the divisor. -/
theorem abs_tmod_lt (a : Int) {b : Int} (hb : b ≠ 0) : |a.tmod b| < |b| := by
  rw [Int.abs_eq_natAbs, Int.abs_eq_natAbs, Int.natAbs_tmod]
  exact Int.ofNat_lt.mpr (Nat.mod_lt _ (Int.natAbs_pos.mpr hb))

/-- A remainder that is not zero has the sign of the dividend. -/
theorem tmod_neg_iff {a b : Int} (h : a.tmod b ≠ 0) : a.tmod b < 0 ↔ a < 0 := by
  have hsign := Int.sign_tmod a b
  rw [if_neg fun hdvd => h (Int.tmod_eq_zero_of_dvd hdvd)] at hsign
  rw [← Int.sign_eq_neg_one_iff_neg, hsign, Int.sign_eq_neg_one_iff_neg]

theorem lt_zero_iff {a : Int64} : a < 0 ↔ a.toInt < 0 := Int64.lt_iff_toInt_lt

theorem remainder_eq_zero_iff {a b : Int64} : a % b = 0 ↔ a.toInt.tmod b.toInt = 0 := by
  rw [← Int64.toInt_mod, ← Int64.toInt_inj]
  rfl

/-- The quotient lies above the exact one if there is a remainder and just one of the two numbers is
negative. -/
theorem isRoundedUp_iff {a b : Int64} : isRoundedUp a b = true ↔ a % b ≠ 0 ∧ (a < 0 ↔ ¬ b < 0) := by
  simp only [isRoundedUp, Bool.and_eq_true, decide_eq_true_eq, ne_eq, bne_iff_ne, decide_eq_decide]
  tauto

theorem isRoundedUp_iff_toInt {a b : Int64} :
    isRoundedUp a b = true ↔ a.toInt.tmod b.toInt ≠ 0 ∧ (a.toInt < 0 ↔ ¬ b.toInt < 0) := by
  rw [isRoundedUp_iff, ne_eq, remainder_eq_zero_iff, lt_zero_iff, lt_zero_iff]

/-! ### The corrections -/

/-- Where the quotient lies above the exact one, it is far from the least integer, and one less
still fits. -/
theorem toInt_quotient_sub_one {a b : Int64} (h : isRoundedUp a b = true) :
    (a / b - 1).toInt = a.toInt.tdiv b.toInt - 1 ∧ -2 ^ 63 ≤ a.toInt.tdiv b.toInt - 1 := by
  obtain ⟨hrem, -⟩ := isRoundedUp_iff_toInt.mp h
  have hfits : ¬ (a = Int64.minValue ∧ b = -1) := by
    rintro ⟨rfl, rfl⟩
    exact hrem rfl
  have hone : b.toInt.natAbs ≠ 1 := fun hone => by
    have hmod := Int.natAbs_tmod a.toInt b.toInt
    rw [hone, Nat.mod_one, Int.natAbs_eq_zero] at hmod
    exact hrem hmod
  have hhalf : (a.toInt.tdiv b.toInt).natAbs ≤ 2 ^ 62 := by
    have ha : a.toInt.natAbs ≤ 2 ^ 63 := by have := bounds_toInt a; omega
    have hdiv : (a.toInt.tdiv b.toInt).natAbs = a.toInt.natAbs / b.toInt.natAbs := Int.natAbs_tdiv _ _
    rw [hdiv]
    by_cases hb : b.toInt.natAbs = 0
    · rw [hb, Nat.div_zero]
      exact Nat.zero_le _
    · have htwo : 2 ≤ b.toInt.natAbs := by omega
      calc a.toInt.natAbs / b.toInt.natAbs
          ≤ a.toInt.natAbs / 2 := Nat.div_le_div_left htwo Nat.two_pos
        _ ≤ 2 ^ 62 := by omega
  have hlow : -2 ^ 63 ≤ a.toInt.tdiv b.toInt - 1 := by omega
  refine ⟨?_, hlow⟩
  rw [Int64.toInt_sub, toInt_quotient hfits, Int64.toInt_one]
  exact Int.bmod_eq_of_le (by omega) (by omega)

/-- There the remainder and the divisor lie on different sides of zero, and their sum fits. -/
theorem toInt_remainder_add {a b : Int64} (hb : b.toInt ≠ 0) (h : isRoundedUp a b = true) :
    (a % b + b).toInt = a.toInt.tmod b.toInt + b.toInt ∧
      (0 ≤ a.toInt.tmod b.toInt + b.toInt ∧ a.toInt.tmod b.toInt + b.toInt < b.toInt ∨
        b.toInt < a.toInt.tmod b.toInt + b.toInt ∧ a.toInt.tmod b.toInt + b.toInt ≤ 0) := by
  obtain ⟨hrem, hsigns⟩ := isRoundedUp_iff_toInt.mp h
  have hneg := tmod_neg_iff hrem
  have habs := abs_tmod_lt a.toInt hb
  obtain ⟨hlow, hhigh⟩ := bounds_toInt b
  have hbetween : 0 ≤ a.toInt.tmod b.toInt + b.toInt ∧ a.toInt.tmod b.toInt + b.toInt < b.toInt ∨
      b.toInt < a.toInt.tmod b.toInt + b.toInt ∧ a.toInt.tmod b.toInt + b.toInt ≤ 0 := by
    rcases lt_or_gt_of_ne hb with hb | hb
    · have ha : ¬ a.toInt.tmod b.toInt < 0 := by omega
      rw [abs_of_nonneg (by omega), abs_of_neg hb] at habs
      omega
    · have ha : a.toInt.tmod b.toInt < 0 := by omega
      rw [abs_of_neg ha, abs_of_pos hb] at habs
      omega
  refine ⟨?_, hbetween⟩
  rw [Int64.toInt_add, Int64.toInt_mod]
  exact Int.bmod_eq_of_le (by omega) (by omega)

/-- Where the quotient is not above the exact one, the remainder lies between zero and the divisor as
it is. -/
theorem remainder_between {a b : Int64} (hb : b.toInt ≠ 0) (h : isRoundedUp a b = false) :
    0 ≤ a.toInt.tmod b.toInt ∧ a.toInt.tmod b.toInt < b.toInt ∨
      b.toInt < a.toInt.tmod b.toInt ∧ a.toInt.tmod b.toInt ≤ 0 := by
  have habs := abs_tmod_lt a.toInt hb
  have hnot : ¬ (a.toInt.tmod b.toInt ≠ 0 ∧ (a.toInt < 0 ↔ ¬ b.toInt < 0)) := by
    rw [← isRoundedUp_iff_toInt, h]
    exact Bool.false_ne_true
  have hsigns : a.toInt.tmod b.toInt = 0 ∨ (a.toInt.tmod b.toInt < 0 ↔ b.toInt < 0) := by
    by_cases hzero : a.toInt.tmod b.toInt = 0
    · exact .inl hzero
    · have hneg := tmod_neg_iff hzero
      exact .inr (by tauto)
  have := abs_lt.mp habs
  rcases lt_or_gt_of_ne hb with hb | hb
  · rw [abs_of_neg hb] at this
    omega
  · rw [abs_of_pos hb] at this
    omega

/-- Unless the divisor is zero or the quotient does not fit, there are a quotient and a remainder,
and they are those of the division rounded down. -/
theorem exists_floorDivides {a b : Int64} (hb : b ≠ 0) (h : ¬ (a = Int64.minValue ∧ b = -1)) :
    ∃ q r, floorQuotient a b = .ok q ∧ floorRemainder a b = .ok r ∧
      FloorDivides a.toInt b.toInt q.toInt r.toInt := by
  have hb' : b.toInt ≠ 0 := fun hzero => hb (Int64.toInt_inj.mp hzero)
  have hexact : a.toInt = b.toInt * a.toInt.tdiv b.toInt + a.toInt.tmod b.toInt :=
    (Int.mul_tdiv_add_tmod a.toInt b.toInt).symm
  rw [floorQuotient, floorRemainder, if_neg hb, if_neg h, if_neg hb, if_neg h]
  cases hup : isRoundedUp a b with
  | true =>
    obtain ⟨hr, hbetween⟩ := toInt_remainder_add hb' hup
    refine ⟨_, _, rfl, rfl, ?_⟩
    rw [hr, (toInt_quotient_sub_one hup).1]
    refine floorDivides_of_between ?_ hbetween
    rw [mul_sub]
    omega
  | false =>
    refine ⟨_, _, rfl, rfl, ?_⟩
    rw [toInt_quotient h, Int64.toInt_mod]
    exact floorDivides_of_between hexact (remainder_between hb' hup)

/-! ### A machine that stops -/

/-- The word of an exact integer; a machine stops where there is none. -/
def word? (n : Int) : Option Int64 := (narrow n).toOption

theorem word?_eq_some_iff {n : Int} {w : Int64} : word? n = some w ↔ w.toInt = n := by
  rw [← narrow_eq_ok_iff, word?]
  cases narrow n <;> simp [Except.toOption]

theorem word?_toInt (w : Int64) : word? w.toInt = some w := word?_eq_some_iff.mpr rfl

/-- The quotient of two words that is rounded toward zero, if there is one and it fits. -/
def truncatedQuotient? (a b : Int64) : Option Int64 :=
  if b = 0 then none else word? (a.toInt.tdiv b.toInt)

/-- The remainder of that quotient, if there is such a quotient. -/
def truncatedRemainder? (a b : Int64) : Option Int64 := do
  let _ ← truncatedQuotient? a b
  word? (a.toInt.tmod b.toInt)

/-- The quotient rounded down, computed by a machine that stops where a step has no exact result. -/
def floorQuotient? (a b : Int64) : Option (Except Fault Int64) :=
  if b = 0 then some (.error .divisionByZero)
  else
    match truncatedQuotient? a b with
    | none => some (.error .overflow)
    | some q => do
      let r ← truncatedRemainder? a b
      if r ≠ 0 ∧ (a < 0 ↔ ¬ b < 0) then
        return .ok (← word? (q.toInt - 1))
      else return .ok q

/-- The remainder of the quotient rounded down, computed by such a machine. Whether it is corrected is
seen at the sign of the remainder and not at that of the dividend. -/
def floorRemainder? (a b : Int64) : Option (Except Fault Int64) :=
  if b = 0 then some (.error .divisionByZero)
  else
    match truncatedRemainder? a b with
    | none => some (.error .overflow)
    | some r =>
      if r ≠ 0 ∧ (r < 0 ↔ ¬ b < 0) then do
        return .ok (← word? (r.toInt + b.toInt))
      else some (.ok r)

theorem truncatedQuotient?_of_not_fits {a b : Int64} (h : a = Int64.minValue ∧ b = -1) :
    truncatedQuotient? a b = none := by
  obtain ⟨rfl, rfl⟩ := h
  rfl

theorem truncatedQuotient?_of_fits {a b : Int64} (hb : b ≠ 0) (h : ¬ (a = Int64.minValue ∧ b = -1)) :
    truncatedQuotient? a b = some (a / b) := by
  rw [truncatedQuotient?, if_neg hb, ← toInt_quotient h, word?_toInt]

theorem truncatedRemainder?_of_fits {a b : Int64} (hb : b ≠ 0) (h : ¬ (a = Int64.minValue ∧ b = -1)) :
    truncatedRemainder? a b = some (a % b) := by
  rw [truncatedRemainder?, truncatedQuotient?_of_fits hb h, ← Int64.toInt_mod]
  exact word?_toInt (a % b)

/-- The machine does not stop on the way to the quotient rounded down. -/
theorem floorQuotient?_eq (a b : Int64) : floorQuotient? a b = some (floorQuotient a b) := by
  rw [floorQuotient?, floorQuotient]
  by_cases hb : b = 0
  · rw [if_pos hb, if_pos hb]
  rw [if_neg hb, if_neg hb]
  by_cases h : a = Int64.minValue ∧ b = -1
  · rw [truncatedQuotient?_of_not_fits h, if_pos h]
  rw [truncatedQuotient?_of_fits hb h, truncatedRemainder?_of_fits hb h, if_neg h]
  dsimp only [Option.bind_eq_bind, Option.bind_some]
  by_cases hup : isRoundedUp a b = true
  · have hword : (a / b).toInt - 1 = (a / b - 1).toInt := by
      rw [(toInt_quotient_sub_one hup).1, toInt_quotient h]
    rw [if_pos (isRoundedUp_iff.mp hup), if_pos hup, hword, word?_toInt]
    rfl
  · rw [if_neg fun hwords => hup (isRoundedUp_iff.mpr hwords), if_neg hup]
    rfl

/-- Nor does it on the way to the remainder, which it corrects in the same cases. -/
theorem floorRemainder?_eq (a b : Int64) : floorRemainder? a b = some (floorRemainder a b) := by
  rw [floorRemainder?, floorRemainder]
  by_cases hb : b = 0
  · rw [if_pos hb, if_pos hb]
  rw [if_neg hb, if_neg hb]
  by_cases h : a = Int64.minValue ∧ b = -1
  · rw [truncatedRemainder?, truncatedQuotient?_of_not_fits h, if_pos h]
    rfl
  rw [truncatedRemainder?_of_fits hb h, if_neg h]
  dsimp only
  have hsigns : (a % b ≠ 0 ∧ (a % b < 0 ↔ ¬ b < 0)) ↔ isRoundedUp a b = true := by
    rw [isRoundedUp_iff]
    refine and_congr_right fun hrem => ?_
    rw [lt_zero_iff, Int64.toInt_mod, tmod_neg_iff fun hzero => hrem (remainder_eq_zero_iff.mpr hzero),
      ← lt_zero_iff]
  by_cases hup : isRoundedUp a b = true
  · have hb' : b.toInt ≠ 0 := fun hzero => hb (Int64.toInt_inj.mp hzero)
    have hword : (a % b).toInt + b.toInt = (a % b + b).toInt := by
      rw [(toInt_remainder_add hb' hup).1, Int64.toInt_mod]
    rw [if_pos (hsigns.mpr hup), if_pos hup, hword, word?_toInt]
    rfl
  · rw [if_neg fun hwords => hup (hsigns.mp hwords), if_neg hup]

/-! ### The pair -/

/-- A division is refused because of its divisor if and only if that is zero. -/
theorem floorQuotient_eq_divisionByZero_iff {a b : Int64} :
    floorQuotient a b = .error .divisionByZero ↔ b = 0 := by
  rw [floorQuotient]
  grind

theorem floorRemainder_eq_divisionByZero_iff {a b : Int64} :
    floorRemainder a b = .error .divisionByZero ↔ b = 0 := by
  rw [floorRemainder]
  grind

/-- **Quotient and remainder are one pair.** For all integers: both are refused because of the divisor
exactly if it is zero. If it is not, and the two are not the least integer and minus one, both succeed;
quotient and remainder give the dividend back, the quotient is the exact one rounded down, the
remainder is zero or has the sign of the divisor, and it is nearer to zero. And a machine that stops
where a step on the way has no exact result computes the same and never stops. -/
theorem floorDivision_pair (a b : Int64) :
    (Operator.floorDivide.applySources (.operand (.plain a)) (.operand (.plain b)) =
        .error .divisionByZero ↔ b = 0) ∧
    (Operator.modulo.applySources (.operand (.plain a)) (.operand (.plain b)) =
        .error .divisionByZero ↔ b = 0) ∧
    (b ≠ 0 → ¬ (a = Int64.minValue ∧ b = -1) →
      ∃ q r : Int64,
        Operator.floorDivide.applySources (.operand (.plain a)) (.operand (.plain b)) =
          .ok (.integer q) ∧
        Operator.modulo.applySources (.operand (.plain a)) (.operand (.plain b)) = .ok (.integer r) ∧
        FloorDivides a.toInt b.toInt q.toInt r.toInt) ∧
    floorQuotient? a b = some (floorQuotient a b) ∧ floorRemainder? a b = some (floorRemainder a b) := by
  have hquotient : Operator.floorDivide.applySources (.operand (.plain a)) (.operand (.plain b)) =
      (floorQuotient a b).map .integer := rfl
  have hremainder : Operator.modulo.applySources (.operand (.plain a)) (.operand (.plain b)) =
      (floorRemainder a b).map .integer := rfl
  rw [hquotient, hremainder]
  refine ⟨?_, ?_, fun hb h => ?_, floorQuotient?_eq a b, floorRemainder?_eq a b⟩
  · rw [Outcome.map_eq_error_iff, floorQuotient_eq_divisionByZero_iff]
  · rw [Outcome.map_eq_error_iff, floorRemainder_eq_divisionByZero_iff]
  · obtain ⟨q, r, hq, hr, hpair⟩ := exists_floorDivides hb h
    refine ⟨q, r, ?_, ?_, hpair⟩
    · rw [hq]
      rfl
    · rw [hr]
      rfl

/-- Seven below zero by two: the quotient is four below zero, and one remains. -/
theorem floorDivision_pair_below :
    (2 : Int64) ≠ 0 ∧ ¬ ((-7 : Int64) = Int64.minValue ∧ (2 : Int64) = -1) ∧
      Operator.floorDivide.applySources (.operand (.plain (-7))) (.operand (.plain 2)) =
        .ok (.integer (-4)) ∧
      Operator.modulo.applySources (.operand (.plain (-7))) (.operand (.plain 2)) = .ok (.integer 1) ∧
      FloorDivides (-7) 2 (-4) 1 := by
  have hzero : (2 : Int64) ≠ 0 := by decide
  have hfits : ¬ ((-7 : Int64) = Int64.minValue ∧ (2 : Int64) = -1) := by decide
  obtain ⟨q, r, hq, hr, hpair⟩ := (floorDivision_pair (-7) 2).2.2.1 hzero hfits
  obtain rfl : q = -4 := by
    have hcomputed : floorQuotient (-7) 2 = .ok (-4) := by decide
    cases (hq.symm.trans (congrArg (Except.map Value.integer) hcomputed))
    rfl
  obtain rfl : r = 1 := by
    have hcomputed : floorRemainder (-7) 2 = .ok 1 := by decide
    cases (hr.symm.trans (congrArg (Except.map Value.integer) hcomputed))
    rfl
  exact ⟨hzero, hfits, hq, hr, hpair⟩

end Roman.Integer
