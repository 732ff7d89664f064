import Roman.Proofs.Range

/-!
# The table of operators

What an operator makes of two operands is decided by their shapes, and the table says it case by
case (`Operator.Tabled`): which operands are refused, when a quotient is a real, when a numeral
comes out and when the exact number is out of range. There is an entry for every operator and every
two operands (`Operator.exists_tabled`), and it is what the operator gives
(`Operator.apply_of_tabled`).

Another form of the table is a list of rules that are tried in order (`Operator.Rule`). The last of
them, which refuses what is left, is never needed (`Operator.findSome?_outcome?`).
-/

namespace Roman

/-- The text that a source of an operand is given as, if it is given as text. -/
def Operand.Source.text? : Operand.Source → Option String
  | value (.text s) => some s
  | operand (.text n) => some n.canonical
  | _ => none

/-- Text that is coerced is the canonical form of the numeral that it is coerced to. -/
theorem Operand.Source.text?_of_coerce {source : Operand.Source} {a : Numeral}
    (h : source.coerce = .ok (.text a)) : source.text? = some a.canonical := by
  cases source with
  | operand o =>
    cases h
    rfl
  | value v =>
    cases v with
    | text s =>
      obtain ⟨b, hb, hba⟩ := Outcome.map_eq_ok_iff.mp h
      cases hba
      rw [text?, Numeral.ofText_eq_ok_iff.mp hb]
    | numeral n => cases h
    | integer i => cases h
    | real x => cases h

namespace Operator

/-! ### Operands that are refused -/

/-- The operands that an operator refuses: text beside text or beside an integer, whatever the
operator; and all operands but two integers, if the operator is a quotient rounded down, a remainder
or a power. -/
inductive Refuses : Operator → Operand → Operand → Prop where
  /-- Two texts. -/
  | textText (operator : Operator) (a b : Numeral) : Refuses operator (.text a) (.text b)
  /-- Text on the left of an integer. -/
  | textPlain (operator : Operator) (a : Numeral) (j : Int64) : Refuses operator (.text a) (.plain j)
  /-- Text on the right of an integer. -/
  | plainText (operator : Operator) (i : Int64) (b : Numeral) : Refuses operator (.plain i) (.text b)
  /-- What only integers have, where one of the two is none. -/
  | numeralShaped {operator : Operator} {l r : Operand}
      (hoperator : operator = floorDivide ∨ operator = modulo ∨ operator = power)
      (hshape : l.isNumeralShaped = true ∨ r.isNumeralShaped = true) : Refuses operator l r

theorem apply_of_refuses {operator : Operator} {l r : Operand} (h : operator.Refuses l r) :
    operator.apply l r = .error (.mismatch (.operands operator l r)) := by
  cases h with
  | textText => rfl
  | textPlain => rfl
  | plainText => rfl
  | numeralShaped hoperator hshape =>
    cases l with
    | numeral a => rcases hoperator with rfl | rfl | rfl <;> rfl
    | text a => rcases hoperator with rfl | rfl | rfl <;> cases r <;> rfl
    | plain i =>
      cases r with
      | numeral b => rcases hoperator with rfl | rfl | rfl <;> rfl
      | text b => rfl
      | plain j => rcases hshape with h | h <;> cases h

/-- Text that is not refused stands on the left of a numeral. -/
theorem text_left_of_not_refuses {operator : Operator} {a : Numeral} {r : Operand}
    (h : ¬ operator.Refuses (.text a) r) : ∃ b, r = .numeral b := by
  cases r with
  | numeral b => exact ⟨b, rfl⟩
  | text b => exact absurd (.textText operator a b) h
  | plain j => exact absurd (.textPlain operator a j) h

/-- What stands beside an integer and is not refused is an integer or a numeral. -/
theorem plain_left_of_not_refuses {operator : Operator} {i : Int64} {r : Operand}
    (h : ¬ operator.Refuses (.plain i) r) : (∃ b, r = .numeral b) ∨ ∃ j, r = .plain j := by
  cases r with
  | numeral b => exact .inl ⟨b, rfl⟩
  | text b => exact absurd (.plainText operator i b) h
  | plain j => exact .inr ⟨j, rfl⟩

/-- Operands that are not refused are two integers, or there is a numeral among them. -/
theorem plain_or_numeral_of_not_refuses {operator : Operator} {l r : Operand}
    (h : ¬ operator.Refuses l r) :
    (∃ i j, l = .plain i ∧ r = .plain j) ∨ (∃ a, l = .numeral a) ∨ ∃ b, r = .numeral b := by
  cases l with
  | numeral a => exact .inr (.inl ⟨a, rfl⟩)
  | text a => exact .inr (.inr (text_left_of_not_refuses h))
  | plain i =>
    rcases plain_left_of_not_refuses h with ⟨b, rfl⟩ | ⟨j, rfl⟩
    · exact .inr (.inr ⟨b, rfl⟩)
    · exact .inl ⟨i, j, rfl, rfl⟩

/-- A quotient that is not refused is a real, or there is none. -/
theorem apply_divide {l r : Operand} (h : ¬ divide.Refuses l r) :
    divide.apply l r = Integer.realQuotient l.decimal r.decimal := by
  cases l with
  | numeral a => rfl
  | text a =>
    obtain ⟨b, rfl⟩ := text_left_of_not_refuses h
    rfl
  | plain i =>
    rcases plain_left_of_not_refuses h with ⟨b, rfl⟩ | ⟨j, rfl⟩
    · rfl
    · rfl

/-! ### Two integers -/

/-- What an operator other than the quotient makes of two integers. -/
inductive IntegerOutcome (operator : Operator) (a b : Int64) : Except Fault Value → Prop where
  /-- An integer. -/
  | integer (i : Int64) : IntegerOutcome operator a b (.ok (.integer i))
  /-- The result does not fit. -/
  | overflow : IntegerOutcome operator a b (.error .overflow)
  /-- The divisor is zero. -/
  | divisionByZero (hoperator : operator = floorDivide ∨ operator = modulo) (hb : b = 0) :
      IntegerOutcome operator a b (.error .divisionByZero)
  /-- A power with a negative exponent. -/
  | real (hoperator : operator = power) (hb : b < 0) (x : Float) :
      IntegerOutcome operator a b (.ok (.real x))

section

variable {operator : Operator} {a b : Int64}

theorem integerOutcome_narrow (n : Int) :
    IntegerOutcome operator a b ((Integer.narrow n).map .integer) := by
  rw [Integer.narrow]
  split
  · exact .integer _
  · exact .overflow

theorem integerOutcome_naturalPower (n : Nat) :
    IntegerOutcome operator a b ((Integer.naturalPower a n).map .integer) := by
  rw [Integer.naturalPower]
  split
  · exact integerOutcome_narrow _
  · split
    · exact .integer _
    · split
      · exact .integer _
      · split
        · exact .integer _
        · exact .overflow

theorem integerOutcome_apply (h : operator ≠ divide) :
    IntegerOutcome operator a b (Integer.apply operator a b) := by
  cases operator with
  | add => exact integerOutcome_narrow _
  | subtract => exact integerOutcome_narrow _
  | multiply => exact integerOutcome_narrow _
  | divide => exact absurd rfl h
  | floorDivide =>
    rw [Integer.apply, Integer.floorQuotient]
    split
    next hb => exact .divisionByZero (.inl rfl) hb
    next =>
      split
      · exact .overflow
      · split
        · exact .integer _
        · exact .integer _
  | modulo =>
    rw [Integer.apply, Integer.floorRemainder]
    split
    next hb => exact .divisionByZero (.inr rfl) hb
    next =>
      split
      · exact .overflow
      · split
        · exact .integer _
        · exact .integer _
  | power =>
    rw [Integer.apply, Integer.power]
    split
    · split
      · exact integerOutcome_naturalPower _
      · exact .overflow
    next hb =>
      split
      · refine .real rfl ?_ _
        rw [Int64.lt_iff_toInt_lt]
        exact Int.not_le.mp hb
      · exact .overflow

end

/-! ### The table -/

/-- The entry of the table for an operator and two operands, of which the left one was given as
`left`. -/
inductive Tabled (operator : Operator) (left : Operand.Source) (l r : Operand) :
    Except Fault Value → Prop where
  /-- The operands are refused. -/
  | refused (h : operator.Refuses l r) :
      Tabled operator left l r (.error (.mismatch (.operands operator l r)))
  /-- Nothing is divided by zero. -/
  | divisionByZero (h : ¬ operator.Refuses l r) (hoperator : operator = divide)
      (hzero : r.decimal = 0) : Tabled operator left l r (.error .divisionByZero)
  /-- A quotient is a real. -/
  | quotient (h : ¬ operator.Refuses l r) (hoperator : operator = divide) (hzero : r.decimal ≠ 0) :
      Tabled operator left l r (.ok (.real (Float.ofInt l.decimal / Float.ofInt r.decimal)))
  /-- Two integers make what integers make. -/
  | integers {a b : Int64} (hoperator : operator ≠ divide) (hl : l = .plain a) (hr : r = .plain b) :
      Tabled operator left l r (Integer.apply operator a b)
  /-- A sum with text on the left is that text with the canonical form of the numeral after it. -/
  | concatenation {a b : Numeral} {s : String} (hoperator : operator = add) (hl : l = .text a)
      (hr : r = .numeral b) (hs : left.text? = some s) :
      Tabled operator left l r (.ok (.text (s ++ b.canonical)))
  /-- Any other sum, difference or product with a numeral is the numeral of the exact result. -/
  | numeral {n : Int} {m : Numeral} (hn : operator.exactResult? l.decimal r.decimal = some n)
      (hnumeral : (∃ a, l = .numeral a) ∨ ∃ b, r = .numeral b)
      (hconcatenates : ¬ operator.Concatenates l r) (hm : (m.decimal : Int) = n) :
      Tabled operator left l r (.ok (.numeral m))
  /-- If the exact result has no numeral, it is out of range. -/
  | range {n : Int} (hn : operator.exactResult? l.decimal r.decimal = some n)
      (hnumeral : (∃ a, l = .numeral a) ∨ ∃ b, r = .numeral b)
      (hconcatenates : ¬ operator.Concatenates l r) (hrange : n < 1 ∨ 3999 < n) :
      Tabled operator left l r (.error (.range n))

/-- An operator gives what the table says. -/
theorem apply_of_tabled {operator : Operator} {left : Operand.Source} {l r : Operand}
    {outcome : Except Fault Value} (hl : left.coerce = .ok l) (h : operator.Tabled left l r outcome) :
    operator.apply l r = outcome := by
  cases h with
  | refused h => exact apply_of_refuses h
  | divisionByZero h hoperator hzero =>
    subst hoperator
    rw [apply_divide h, Integer.realQuotient, if_pos hzero]
  | quotient h hoperator hzero =>
    subst hoperator
    rw [apply_divide h, Integer.realQuotient, if_neg hzero]
  | integers hoperator hl hr =>
    subst hl hr
    rfl
  | @concatenation a b s hoperator hla hr hs =>
    subst hoperator hla hr
    obtain rfl : a.canonical = s :=
      Option.some.inj ((Operand.Source.text?_of_coerce hl).symm.trans hs)
    rfl
  | numeral hn hnumeral hconcatenates hm =>
    rw [apply_of_exactResult? hn hnumeral hconcatenates]
    exact (answers_ofInt _).numeral _ hm
  | range hn hnumeral hconcatenates hrange =>
    rw [apply_of_exactResult? hn hnumeral hconcatenates]
    exact (answers_ofInt _).range hrange

/-- There is an entry for every operator and every two operands. -/
theorem exists_tabled (operator : Operator) {left : Operand.Source} {l : Operand} (r : Operand)
    (hl : left.coerce = .ok l) : ∃ outcome, operator.Tabled left l r outcome := by
  by_cases hrefuses : operator.Refuses l r
  · exact ⟨_, .refused hrefuses⟩
  by_cases hdivide : operator = divide
  · by_cases hzero : r.decimal = 0
    · exact ⟨_, .divisionByZero hrefuses hdivide hzero⟩
    · exact ⟨_, .quotient hrefuses hdivide hzero⟩
  rcases plain_or_numeral_of_not_refuses hrefuses with ⟨i, j, hi, hj⟩ | hnumeral
  · exact ⟨_, .integers hdivide hi hj⟩
  by_cases hconcatenates : operator.Concatenates l r
  · obtain ⟨hadd, ⟨a, rfl⟩, b, hb⟩ := hconcatenates
    exact ⟨_, .concatenation hadd rfl hb (Operand.Source.text?_of_coerce hl)⟩
  have hshape : l.isNumeralShaped = true ∨ r.isNumeralShaped = true := by
    rcases hnumeral with ⟨a, rfl⟩ | ⟨b, rfl⟩
    · exact .inl rfl
    · exact .inr rfl
  obtain ⟨n, hn⟩ : ∃ n, operator.exactResult? l.decimal r.decimal = some n := by
    cases operator with
    | add => exact ⟨_, rfl⟩
    | subtract => exact ⟨_, rfl⟩
    | multiply => exact ⟨_, rfl⟩
    | divide => exact absurd rfl hdivide
    | floorDivide => exact absurd (.numeralShaped (.inl rfl) hshape) hrefuses
    | modulo => exact absurd (.numeralShaped (.inr (.inl rfl)) hshape) hrefuses
    | power => exact absurd (.numeralShaped (.inr (.inr rfl)) hshape) hrefuses
  by_cases hrange : n < 1 ∨ 3999 < n
  · exact ⟨_, .range hn hnumeral hconcatenates hrange⟩
  · have hm : ((⟨n.toNat, by omega, by omega⟩ : Numeral).decimal : Int) = n :=
      Int.toNat_of_nonneg (by omega)
    exact ⟨_, .numeral hn hnumeral hconcatenates hm⟩

/-- What an operator gives stands in the table. -/
theorem tabled_apply (operator : Operator) {left : Operand.Source} {l : Operand} (r : Operand)
    (hl : left.coerce = .ok l) : operator.Tabled left l r (operator.apply l r) := by
  obtain ⟨entry, hentry⟩ := exists_tabled operator r hl
  rwa [apply_of_tabled hl hentry]

/-! ### The table as a list of rules -/

/-- The rules of arithmetic. -/
inductive Rule where
  /-- A sum of text and a numeral concatenates them. -/
  | concatenate
  /-- Text beside text or beside an integer is refused. -/
  | refuseText
  /-- Only of two integers there is a quotient rounded down, a remainder and a power. -/
  | refuseNumeral
  /-- A quotient is a real. -/
  | quotient
  /-- Two integers make what integers make. -/
  | integers
  /-- A sum, a difference or a product is a numeral. -/
  | numerals
  /-- Every other quotient rounded down, remainder or power is refused. -/
  | refuseOthers

/-- The rules in the order in which they are tried. -/
def Rule.all : List Rule :=
  [concatenate, refuseText, refuseNumeral, quotient, integers, numerals, refuseOthers]

/-- What a rule gives, if it is for the operator and the operands. -/
def Rule.outcome? (operator : Operator) (l r : Operand) : Rule → Option (Except Fault Value)
  | concatenate =>
    match operator, l, r with
    | .add, .text a, .numeral b => some (.ok (.text (a.canonical ++ b.canonical)))
    | _, _, _ => none
  | refuseText =>
    match l, r with
    | .text _, .text _ | .text _, .plain _ | .plain _, .text _ => some (operator.refuse l r)
    | _, _ => none
  | refuseNumeral =>
    match operator with
    | .floorDivide | .modulo | .power =>
      if l.isNumeralShaped || r.isNumeralShaped then some (operator.refuse l r) else none
    | _ => none
  | quotient =>
    match operator with
    | .divide => some (Integer.realQuotient l.decimal r.decimal)
    | _ => none
  | integers =>
    match l, r with
    | .plain a, .plain b => some (Integer.apply operator a b)
    | _, _ => none
  | numerals =>
    (operator.exactResult? l.decimal r.decimal).map fun n => (Numeral.ofInt n).map .numeral
  | refuseOthers =>
    match operator with
    | .floorDivide | .modulo | .power => some (operator.refuse l r)
    | _ => none

/-- An operator gives what the first rule gives that is for it and its operands, and the last rule
is never the first. -/
theorem findSome?_outcome? (operator : Operator) (l r : Operand) :
    Rule.all.findSome? (Rule.outcome? operator l r) = some (operator.apply l r) ∧
      Rule.all.dropLast.findSome? (Rule.outcome? operator l r) = some (operator.apply l r) := by
  cases operator <;> cases l <;> cases r <;> exact ⟨rfl, rfl⟩

/-- **The table of operators.** An operand that cannot be coerced is the error, the left one first.
Otherwise an operator gives exactly what the table says: it refuses text beside text or beside an
integer, and where a numeral takes part all quotients rounded down, remainders and powers; a
quotient is a real unless the divisor is zero; two integers make an integer, an overflow, nothing if
the divisor is zero, or a real if the exponent is negative; and a sum, a difference or a product
with a numeral is the numeral of the exact result, or a fault that holds it, but for the sum of text
and a numeral, which is the text as it was given and the canonical form after it. Of the rules that
are tried in order, the last one is never needed. -/
theorem applySources_table :
    (∀ (operator : Operator) (left right : Operand.Source) (e : Fault), left.coerce = .error e →
      operator.applySources left right = .error e) ∧
    (∀ (operator : Operator) (left right : Operand.Source) (l : Operand) (e : Fault),
      left.coerce = .ok l → right.coerce = .error e →
        operator.applySources left right = .error e) ∧
    (∀ (operator : Operator) (left right : Operand.Source) (l r : Operand),
      left.coerce = .ok l → right.coerce = .ok r → ∀ outcome : Except Fault Value,
        operator.applySources left right = outcome ↔ operator.Tabled left l r outcome) ∧
    (∀ (operator : Operator) (a b : Int64), operator ≠ divide →
      IntegerOutcome operator a b (Integer.apply operator a b)) ∧
    (∀ (operator : Operator) (l r : Operand),
      Rule.all.findSome? (Rule.outcome? operator l r) = some (operator.apply l r) ∧
        Rule.all.dropLast.findSome? (Rule.outcome? operator l r) = some (operator.apply l r)) := by
  refine ⟨fun operator left right e hl => ?_, fun operator left right l e hl hr => ?_,
    fun operator left right l r hl hr outcome => ?_, fun operator a b h => integerOutcome_apply h,
    findSome?_outcome?⟩
  · rw [applySources, hl]
    rfl
  · rw [applySources, hl, hr]
    rfl
  · rw [applySources_of_coerce hl hr]
    constructor
    · rintro rfl
      exact tabled_apply operator r hl
    · exact apply_of_tabled hl

/-- Text on the left of a numeral is concatenated, but beside an integer it is refused, even where
that is zero; and a real on the left is the error, whatever the text on the right. -/
theorem applySources_table_text :
    add.applySources (.value (.text "IX")) (.value (.numeral ⟨14, by decide, by decide⟩)) =
        .ok (.text "IXXIV") ∧
      divide.applySources (.value (.text "IX")) (.value (.integer 0)) =
        .error (.mismatch (.operands divide (.text ⟨9, by decide, by decide⟩) (.plain 0))) ∧
      add.applySources (.value (.real 0.5)) (.value (.text "IIII")) =
        .error (.mismatch (.realOperand 0.5)) := by
  obtain ⟨hleft, -, htable, -⟩ := applySources_table
  refine ⟨?_, ?_, hleft _ _ _ _ rfl⟩
  · have htext : "IX" ++ Numeral.canonical ⟨14, by decide, by decide⟩ = "IXXIV" := by rfl
    rw [← htext]
    exact (htable add _ _ (.text ⟨9, by decide, by decide⟩) _ rfl rfl _).mpr
      (.concatenation rfl rfl rfl rfl)
  · exact (htable divide _ _ _ _ rfl rfl _).mpr (.refused (.textPlain ..))

end Operator

end Roman
