import Roman.Proofs.FloorDivision
import Roman.Proofs.Range

/-!
# Overflow of integers

Where the exact result of an operator for two integers is an integer (`Operator.integerResult?`), that
integer is the answer if it fits into 64 bits, and otherwise there is an overflow. There are two
exceptions, in which an overflow is reported though the result fits (`Operator.Misreported`): the
least integer modulo minus one, where the quotient would not fit but the remainder is zero, and the
powers of zero, one and minus one with an exponent of more than 32 bits.

A power is the exact power, narrowed at the end (`Integer.naturalPower_eq`). Repeated squaring, with
each product checked, gives the same (`Integer.powerBySquaring_eq`): no product on the way overflows
unless the power does.
-/

namespace Roman

namespace Integer

theorem narrow_eq_overflow_iff {n : Int} : narrow n = .error .overflow ↔ ¬ Fits n := by
  rw [narrow_eq_error_iff, eq_self_iff_true, true_and, Fits]
  omega

theorem narrow_of_not_fits {n : Int} (h : ¬ Fits n) : narrow n = .error .overflow :=
  narrow_eq_overflow_iff.mpr h

theorem exists_narrow_of_fits {n : Int} (h : Fits n) : ∃ i, narrow n = .ok i ∧ i.toInt = n := by
  have hok : narrow n = .ok (.ofInt n) := if_pos h
  exact ⟨_, hok, narrow_eq_ok_iff.mp hok⟩

/-! ### Multiples and powers that do not fit -/

/-- What is farther from zero than the least integer does not fit. -/
theorem not_fits_of_lt_abs {n : Int} (h : 2 ^ 63 < |n|) : ¬ Fits n := by
  rw [fits_iff]
  rintro ⟨hlow, hhigh⟩
  have : |n| ≤ 2 ^ 63 := abs_le.mpr ⟨hlow, hhigh.le⟩
  omega

/-- A positive multiple of an integer that does not fit does not fit. -/
theorem not_fits_mul {m k : Int} (hm : ¬ Fits m) (hk : 1 ≤ k) : ¬ Fits (m * k) := by
  rw [fits_iff] at hm ⊢
  rintro ⟨hlow, hhigh⟩
  rcases le_total 0 m with hsign | hsign
  · have : m * 1 ≤ m * k := Int.mul_le_mul_of_nonneg_left hk hsign
    omega
  · have : m * k ≤ m * 1 := Int.mul_le_mul_of_nonpos_left hsign hk
    omega

/-- The least integer is no square, so a square that does not fit is farther from zero. -/
theorem lt_square_of_not_fits {x : Int} (h : ¬ Fits (x * x)) : 2 ^ 63 < x * x := by
  have hnonneg : 0 ≤ x * x := mul_self_nonneg x
  by_contra hle
  have hroot : |x| < 3037000500 := by
    refine abs_lt_of_sq_lt_sq ?_ (by decide)
    rw [sq]
    omega
  have hsquare : x * x ≤ 3037000499 * 3037000499 := by
    rw [← abs_mul_abs_self x]
    exact Int.mul_le_mul (by omega) (by omega) (abs_nonneg x) (by decide)
  exact h (fits_iff.mpr ⟨by omega, by omega⟩)

theorem not_fits_mul_squares {m x : Int} {k : Nat} (hm : m ≠ 0) (hk : k ≠ 0) (h : ¬ Fits (x * x)) :
    ¬ Fits (m * (x * x) ^ k) := by
  have hlt := lt_square_of_not_fits h
  refine not_fits_of_lt_abs ?_
  calc (2 : Int) ^ 63
      < x * x := hlt
    _ ≤ (x * x) ^ k := le_self_pow₀ (by omega) hk
    _ = 1 * |(x * x) ^ k| := by rw [one_mul, abs_of_nonneg (pow_nonneg (mul_self_nonneg x) k)]
    _ ≤ |m| * |(x * x) ^ k| := mul_le_mul_of_nonneg_right (Int.one_le_abs hm) (abs_nonneg _)
    _ = |m * (x * x) ^ k| := (abs_mul m _).symm

/-- Only the powers of zero, one and minus one fit when the exponent is large. -/
theorem not_fits_pow {a : Int} {n : Nat} (ha : 2 ≤ |a|) (hn : 64 ≤ n) : ¬ Fits (a ^ n) := by
  refine not_fits_of_lt_abs ?_
  calc (2 : Int) ^ 63
      < 2 ^ 64 := by decide
    _ ≤ 2 ^ n := pow_le_pow_right₀ (by decide) hn
    _ ≤ |a| ^ n := pow_le_pow_left₀ (by decide) ha n
    _ = |a ^ n| := (abs_pow a n).symm

/-! ### Powers -/

/-- The words of zero, one and minus one are the only ones whose distance from zero is less than
two. -/
theorem two_le_abs_toInt {a : Int64} (hzero : a ≠ 0) (hone : a ≠ 1) (hminus : a ≠ -1) :
    2 ≤ |a.toInt| := by
  have hzero' : a.toInt ≠ 0 := fun h => hzero (Int64.toInt_inj.mp h)
  have hone' : a.toInt ≠ 1 := fun h => hone (Int64.toInt_inj.mp h)
  have hminus' : a.toInt ≠ -1 := fun h => hminus (Int64.toInt_inj.mp h)
  rcases abs_cases a.toInt with ⟨habs, hsign⟩ | ⟨habs, hsign⟩ <;> omega

/-- A power with an exponent that is not negative is the exact power, if that fits. -/
theorem naturalPower_eq (a : Int64) (n : Nat) : naturalPower a n = narrow (a.toInt ^ n) := by
  rw [naturalPower]
  by_cases hn : n < 64
  · rw [if_pos hn]
    rfl
  rw [if_neg hn]
  by_cases hzero : a = 0
  · rw [if_pos hzero, hzero, Int64.toInt_zero, zero_pow (by omega)]
    rfl
  rw [if_neg hzero]
  by_cases hone : a = 1
  · rw [if_pos hone, hone, Int64.toInt_one, one_pow]
    rfl
  rw [if_neg hone]
  by_cases hminus : a = -1
  · have hbase : (-1 : Int64).toInt = -1 := rfl
    rw [if_pos hminus, hminus, hbase, neg_one_pow_eq_ite]
    simp only [Nat.even_iff]
    split <;> rfl
  · rw [if_neg hminus,
      narrow_of_not_fits (not_fits_pow (two_le_abs_toInt hzero hone hminus) (by omega))]

/-- The powers of zero, one and minus one fit, whatever the exponent. -/
theorem fits_pow {a : Int64} (h : a = 0 ∨ a = 1 ∨ a = -1) (n : Nat) : Fits (a.toInt ^ n) := by
  have habs : |a.toInt| ≤ 1 := by rcases h with rfl | rfl | rfl <;> decide
  have hpow : |a.toInt ^ n| ≤ 1 := by
    rw [abs_pow]
    exact pow_le_one₀ (abs_nonneg _) habs
  obtain ⟨hlow, hhigh⟩ := abs_le.mp hpow
  exact fits_iff.mpr ⟨by omega, by omega⟩

/-- Multiplies `r` by `x` if the lowest bit of the exponent is set; the product has to fit. -/
def multiplyOdd (r x : Int64) (n : Nat) : Except Fault Int64 :=
  if n % 2 = 1 then narrow (r.toInt * x.toInt) else .ok r

/-- Multiplies `r` by the power of `x` with the exponent `n`, by repeated squaring from the lowest
bit of the exponent; every product on the way has to fit. -/
def powerBySquaring (r x : Int64) (n : Nat) : Except Fault Int64 := do
  let r ← multiplyOdd r x n
  if h : n / 2 = 0 then return r
  else powerBySquaring r (← narrow (x.toInt * x.toInt)) (n / 2)
termination_by n
decreasing_by omega

theorem multiplyOdd_eq (r x : Int64) (n : Nat) :
    multiplyOdd r x n = narrow (r.toInt * x.toInt ^ (n % 2)) := by
  rw [multiplyOdd]
  rcases Nat.mod_two_eq_zero_or_one n with hn | hn
  · rw [hn, if_neg (by decide), pow_zero, mul_one]
    exact (narrow_eq_ok_iff.mpr rfl).symm
  · rw [hn, if_pos rfl, pow_one]

/-- One step of repeated squaring takes the lowest bit off the exponent. -/
theorem mul_pow_eq (r x : Int) (n : Nat) : r * x ^ n = r * x ^ (n % 2) * (x * x) ^ (n / 2) := by
  rw [← pow_two, ← pow_mul, mul_assoc, ← pow_add, Nat.mod_add_div]

/-- A product with zero fits. -/
theorem base_ne_zero {r x : Int64} {n : Nat} (h : ¬ Fits (r.toInt * x.toInt ^ (n % 2))) :
    x.toInt ≠ 0 := by
  intro hx
  rw [hx] at h
  rcases Nat.mod_two_eq_zero_or_one n with hn | hn
  · rw [hn, pow_zero, mul_one] at h
    exact h (fits_toInt r)
  · rw [hn, pow_one, mul_zero] at h
    exact h (fits_toInt 0)

/-- Repeated squaring gives the exact power, if that fits. The factor is zero only if the base is, so
that a product or a square that does not fit is never made good by the factors that follow. -/
theorem powerBySquaring_eq {r x : Int64} (h : r.toInt = 0 → x.toInt = 0) (n : Nat) :
    powerBySquaring r x n = narrow (r.toInt * x.toInt ^ n) := by
  induction n using Nat.strongRecOn generalizing r x with
  | ind n ih =>
    rw [powerBySquaring, multiplyOdd_eq, mul_pow_eq r.toInt x.toInt n]
    by_cases hproduct : Fits (r.toInt * x.toInt ^ (n % 2))
    · obtain ⟨m, hm, hm_eq⟩ := exists_narrow_of_fits hproduct
      have hne : x.toInt ≠ 0 → m.toInt ≠ 0 := fun hx => by
        rw [hm_eq]
        exact mul_ne_zero (fun hr => hx (h hr)) (pow_ne_zero _ hx)
      rw [hm, ← hm_eq]
      show (if _ : n / 2 = 0 then _ else _) = _
      by_cases hlast : n / 2 = 0
      · rw [dif_pos hlast, hlast, pow_zero, mul_one]
        exact (narrow_eq_ok_iff.mpr rfl).symm
      rw [dif_neg hlast]
      by_cases hsquare : Fits (x.toInt * x.toInt)
      · obtain ⟨y, hy, hy_eq⟩ := exists_narrow_of_fits hsquare
        have hnext : m.toInt = 0 → y.toInt = 0 := fun hzero => by
          rw [hy_eq, not_imp_not.mp hne hzero, mul_zero]
        rw [hy, ← hy_eq]
        exact ih (n / 2) (by omega) hnext
      · have hx : x.toInt ≠ 0 := fun hx => hsquare (by rw [hx]; exact fits_toInt 0)
        rw [narrow_of_not_fits hsquare, narrow_of_not_fits (not_fits_mul_squares (hne hx) hlast hsquare)]
        rfl
    · have hpos : 1 ≤ (x.toInt * x.toInt) ^ (n / 2) :=
        one_le_pow₀ (mul_self_pos.mpr (base_ne_zero hproduct))
      rw [narrow_of_not_fits hproduct, narrow_of_not_fits (not_fits_mul hproduct hpos)]
      rfl

/-! ### Quotients and remainders -/

/-- The quotient of the least integer by minus one is the first integer that is too large. -/
theorem floor_minValue : ⌊((Int64.minValue).toInt : ℚ) / (-1 : Int64).toInt⌋ = 2 ^ 63 :=
  have hpair : FloorDivides (Int64.minValue).toInt (-1 : Int64).toInt (2 ^ 63) 0 :=
    floorDivides_of_between (by decide) (.inr ⟨by decide, by decide⟩)
  hpair.floor.symm

/-- A quotient rounded down is the exact one rounded down, if that fits. -/
theorem floorQuotient_eq_narrow {a b : Int64} (hb : b ≠ 0) :
    floorQuotient a b = narrow ⌊(a.toInt : ℚ) / b.toInt⌋ := by
  by_cases h : a = Int64.minValue ∧ b = -1
  · obtain ⟨rfl, rfl⟩ := h
    rw [floor_minValue]
    rfl
  · obtain ⟨q, r, hq, -, hpair⟩ := exists_floorDivides hb h
    rw [hq, ← hpair.floor]
    exact (narrow_eq_ok_iff.mpr rfl).symm

/-- A remainder is the exact one, if the quotient fits. -/
theorem floorRemainder_eq_narrow {a b : Int64} (hb : b ≠ 0) (h : ¬ (a = Int64.minValue ∧ b = -1)) :
    floorRemainder a b = narrow (a.toInt - b.toInt * ⌊(a.toInt : ℚ) / b.toInt⌋) := by
  obtain ⟨q, r, -, hr, hpair⟩ := exists_floorDivides hb h
  have hexact : a.toInt - b.toInt * q.toInt = r.toInt := by
    have := hpair.eq
    omega
  rw [hr, ← hpair.floor, hexact]
  exact (narrow_eq_ok_iff.mpr rfl).symm

end Integer

/-! ### The operators -/

namespace Operator

/-- The exact result of an operator for two integers, where it is an integer. -/
def integerResult? (operator : Operator) (a b : Int) : Option Int :=
  match operator with
  | add | subtract | multiply | divide => operator.exactResult? a b
  | floorDivide => if b = 0 then none else some ⌊(a : ℚ) / b⌋
  | modulo => if b = 0 then none else some (a - b * ⌊(a : ℚ) / b⌋)
  | power => if b < 0 then none else some (a ^ b.toNat)

/-- The operands for which an overflow is reported though the exact result fits. -/
inductive Misreported : Operator → Int64 → Int64 → Prop where
  /-- A remainder whose quotient does not fit. -/
  | modulo : Misreported modulo Int64.minValue (-1)
  /-- A power that always fits, with an exponent of more than 32 bits. -/
  | power {a b : Int64} (hbase : a = 0 ∨ a = 1 ∨ a = -1)
      (hexponent : Integer.greatestExponent < b.toInt) : Misreported power a b

section

variable {operator : Operator} {a b : Int64} {n : Int}

theorem fits_of_misreported (h : operator.Misreported a b)
    (hn : operator.integerResult? a.toInt b.toInt = some n) : Integer.Fits n := by
  cases h with
  | modulo =>
    rw [integerResult?, if_neg (by decide), Integer.floor_minValue] at hn
    cases hn
    exact Integer.fits_toInt 0
  | power hbase hexponent =>
    rw [integerResult?] at hn
    split at hn
    next => cases hn
    next =>
      cases hn
      exact Integer.fits_pow hbase _

theorem apply_of_misreported (h : operator.Misreported a b) :
    Integer.apply operator a b = .error .overflow := by
  cases h with
  | modulo => rfl
  | power _ hexponent =>
    have hnonneg : 0 ≤ b.toInt := by
      rw [Integer.greatestExponent] at hexponent
      omega
    rw [Integer.apply, Integer.power, if_pos hnonneg, if_neg (Int.not_le.mpr hexponent)]

/-- Elsewhere the answer is the exact result, narrowed. -/
theorem apply_of_integerResult? (h : ¬ operator.Misreported a b)
    (hn : operator.integerResult? a.toInt b.toInt = some n) :
    Integer.apply operator a b = (Integer.narrow n).map .integer := by
  cases operator with
  | add | subtract | multiply =>
    cases hn
    rfl
  | divide => cases hn
  | floorDivide =>
    rw [integerResult?] at hn
    split at hn
    next => cases hn
    next hb =>
      cases hn
      have hb' : b ≠ 0 := fun hzero => hb (by rw [hzero]; rfl)
      rw [Integer.apply, Integer.floorQuotient_eq_narrow hb']
  | modulo =>
    rw [integerResult?] at hn
    split at hn
    next => cases hn
    next hb =>
      cases hn
      have hb' : b ≠ 0 := fun hzero => hb (by rw [hzero]; rfl)
      have hfits : ¬ (a = Int64.minValue ∧ b = -1) := by
        rintro ⟨rfl, rfl⟩
        exact h .modulo
      rw [Integer.apply, Integer.floorRemainder_eq_narrow hb' hfits]
  | power =>
    rw [integerResult?] at hn
    split at hn
    next => cases hn
    next hb =>
      cases hn
      rw [Integer.apply, Integer.power, if_pos (Int.not_lt.mp hb)]
      by_cases hexponent : b.toInt ≤ Integer.greatestExponent
      · rw [if_pos hexponent, Integer.naturalPower_eq]
      · have hlarge : Integer.greatestExponent < b.toInt := Int.not_le.mp hexponent
        have hbase : ¬ (a = 0 ∨ a = 1 ∨ a = -1) := fun hbase => h (.power hbase hlarge)
        rw [not_or, not_or] at hbase
        have habs := Integer.two_le_abs_toInt hbase.1 hbase.2.1 hbase.2.2
        rw [Integer.greatestExponent] at hlarge
        rw [if_neg hexponent, Integer.narrow_of_not_fits (Integer.not_fits_pow habs (by omega))]
        rfl

end

/-- **An overflow is reported where the exact result does not fit, and in two cases more.** Where the
exact result of an operator for two integers is an integer, it is the answer exactly if it fits and
is not misreported, and an overflow is the answer exactly if it does not fit or is misreported; what
is misreported always fits. And a power is the one that repeated squaring gives when every product on
the way has to fit. -/
theorem integerResult_iff (operator : Operator) (a b : Int64) {n : Int}
    (hn : operator.integerResult? a.toInt b.toInt = some n) :
    (∀ i : Int64,
      operator.applySources (.operand (.plain a)) (.operand (.plain b)) = .ok (.integer i) ↔
        i.toInt = n ∧ ¬ operator.Misreported a b) ∧
    (operator.applySources (.operand (.plain a)) (.operand (.plain b)) = .error .overflow ↔
      ¬ Integer.Fits n ∨ operator.Misreported a b) ∧
    (operator.Misreported a b → Integer.Fits n) ∧
    ∀ k : Nat, Integer.naturalPower a k = Integer.powerBySquaring 1 a k := by
  have happly : operator.applySources (.operand (.plain a)) (.operand (.plain b)) =
      Integer.apply operator a b := rfl
  have hsquaring (k : Nat) : Integer.naturalPower a k = Integer.powerBySquaring 1 a k := by
    have hone : (1 : Int64).toInt = 0 → a.toInt = 0 := nofun
    rw [Integer.naturalPower_eq, Integer.powerBySquaring_eq hone, Int64.toInt_one, one_mul]
  rw [happly]
  by_cases h : operator.Misreported a b
  · have hfits := fits_of_misreported h hn
    rw [apply_of_misreported h]
    exact ⟨fun i => iff_of_false nofun fun hi => hi.2 h, iff_of_true rfl (.inr h), fun _ => hfits,
      hsquaring⟩
  · rw [apply_of_integerResult? h hn]
    refine ⟨fun i => ?_, ?_, fun h' => absurd h' h, hsquaring⟩
    · rw [Outcome.map_eq_ok_iff, ← Integer.narrow_eq_ok_iff]
      simp [h]
    · rw [Outcome.map_eq_error_iff, Integer.narrow_eq_overflow_iff]
      simp [h]

/-- A power that fits, with an exponent that is squared five times. -/
theorem integerResult_iff_power :
    power.integerResult? (-3 : Int64).toInt (39 : Int64).toInt = some (-4052555153018976267) ∧
      power.applySources (.operand (.plain (-3))) (.operand (.plain 39)) =
        .ok (.integer (-4052555153018976267)) := by
  have hn : power.integerResult? (-3 : Int64).toInt (39 : Int64).toInt =
      some (-4052555153018976267) := by decide
  have hsmall : ¬ power.Misreported (-3) 39 := by
    intro h
    cases h with
    | power hbase _ => exact absurd hbase (by decide)
  exact ⟨hn, ((integerResult_iff power (-3) 39 hn).1 _).mpr ⟨by decide, hsmall⟩⟩

/-- One to the power of a word of 33 bits is one, and the least integer modulo minus one is zero; both
are answered as if they did not fit. -/
theorem unit_power_misreported :
    power.integerResult? (1 : Int64).toInt (4294967296 : Int64).toInt = some 1 ∧
      power.applySources (.operand (.plain 1)) (.operand (.plain 4294967296)) = .error .overflow ∧
      modulo.integerResult? (Int64.minValue).toInt (-1 : Int64).toInt = some 0 ∧
      modulo.applySources (.operand (.plain Int64.minValue)) (.operand (.plain (-1))) =
        .error .overflow ∧
      Integer.Fits 1 ∧ Integer.Fits 0 := by
  refine ⟨?_, rfl, ?_, rfl, Integer.fits_toInt 1, Integer.fits_toInt 0⟩
  · rw [integerResult?, if_neg (by decide), Int64.toInt_one, one_pow]
  · rw [integerResult?, if_neg (by decide), Integer.floor_minValue]
    rfl

end Operator
end Roman
