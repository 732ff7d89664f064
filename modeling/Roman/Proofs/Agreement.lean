import Roman.Comparison
import Roman.Proofs.Range

/-!
# Ways that lead to the same result

Sums, differences and products of numerals are made in two ways: of two numerals alone, and by an
operator that takes operands of any shape. The second is the first, in whatever shape the numeral on
the right is given (`Operator.applySources_of_gives`).

Numerals are compared in four ways: with an operand, which is coerced and whose number is looked at;
by the order of numerals; and by five relations, to numerals and to integers, each of which is decided
for itself, and the last of them on words. All of them say how two exact numbers stand to each other
(`Relations.Hold`), and so they agree (`Numeral.paths_agree`).
-/

namespace Roman

/-! ### Arithmetic -/

/-- What a numeral can be given as: as itself, as its text or as its integer. -/
inductive Operand.Source.Gives (n : Numeral) : Operand.Source → Prop where
  /-- As itself. -/
  | numeral : Gives n (.operand (.numeral n))
  /-- As text that has been read. -/
  | text : Gives n (.operand (.text n))
  /-- As an integer. -/
  | plain : Gives n (.operand (.plain n.toInt64))
  /-- As a value that is the numeral. -/
  | numeralValue : Gives n (.value (.numeral n))
  /-- As a text that spells it. -/
  | textValue {s : String} (h : Numeral.parse s = .ok n) : Gives n (.value (.text s))
  /-- As a value that is its integer. -/
  | integerValue : Gives n (.value (.integer n.toInt64))

/-- Whatever a numeral is given as, it is coerced to an operand with its number. -/
theorem Operand.Source.Gives.exists_operand {n : Numeral} {source : Operand.Source}
    (h : source.Gives n) : ∃ o, source.coerce = .ok o ∧ o.decimal = n.decimal := by
  cases h with
  | numeral => exact ⟨_, rfl, rfl⟩
  | text => exact ⟨_, rfl, rfl⟩
  | plain => exact ⟨_, rfl, n.toInt_ofNat_decimal⟩
  | numeralValue => exact ⟨_, rfl, rfl⟩
  | @textValue s h =>
    refine ⟨.text n, ?_, rfl⟩
    rw [coerce, ofValue, Numeral.ofText, h]
    rfl
  | integerValue => exact ⟨_, rfl, n.toInt_ofNat_decimal⟩

namespace Operator

/-- What an operator makes of two numerals alone, if there is such an operation. -/
def ofNumerals? : Operator → Option (Numeral → Numeral → Except Fault Numeral)
  | add => some Numeral.add
  | subtract => some Numeral.subtract
  | multiply => some Numeral.multiply
  | divide | floorDivide | modulo | power => none

variable {operator : Operator} {f : Numeral → Numeral → Except Fault Numeral}

/-- An operation of numerals alone gives the numeral of the exact result. -/
theorem eq_ofInt_of_ofNumerals? (h : operator.ofNumerals? = some f) (a b : Numeral) :
    ∃ n, operator.exactResult? a.decimal b.decimal = some n ∧ f a b = Numeral.ofInt n := by
  cases operator with
  | add | subtract | multiply =>
    cases h
    exact ⟨_, rfl, rfl⟩
  | divide | floorDivide | modulo | power => cases h

/-- With a numeral on the left, and on the right a numeral in any shape, an operator gives what it
makes of the numerals alone. -/
theorem applySources_of_gives (h : operator.ofNumerals? = some f) {a b : Numeral}
    {left right : Operand.Source} (hleft : left.coerce = .ok (.numeral a)) (hright : right.Gives b) :
    operator.applySources left right = (f a b).map .numeral := by
  obtain ⟨o, ho, hdecimal⟩ := hright.exists_operand
  obtain ⟨n, hn, hf⟩ := eq_ofInt_of_ofNumerals? h a b
  rw [← hdecimal] at hn
  have hconcatenates : ¬ operator.Concatenates (.numeral a) o := fun ⟨_, ⟨_, htext⟩, _⟩ => by cases htext
  rw [applySources_of_coerce hleft ho, apply_of_exactResult? hn (.inl ⟨a, rfl⟩) hconcatenates, hf]

end Operator

/-! ### Relations -/

namespace Relations

/-- The relations are those of two integers. -/
structure Hold (r : Relations) (m n : Int) : Prop where
  equal : r.equal = true ↔ m = n
  less : r.less = true ↔ m < n
  lessOrEqual : r.lessOrEqual = true ↔ m ≤ n
  greater : r.greater = true ↔ n < m
  greaterOrEqual : r.greaterOrEqual = true ↔ n ≤ m

/-- The relations are those that an order says. -/
structure Agree (r : Relations) (o : Ordering) : Prop where
  equal : r.equal = true ↔ o = .eq
  less : r.less = true ↔ o = .lt
  lessOrEqual : r.lessOrEqual = true ↔ o ≠ .gt
  greater : r.greater = true ↔ o = .gt
  greaterOrEqual : r.greaterOrEqual = true ↔ o ≠ .lt

/-- The relations of two integers are those that their order says. -/
theorem Hold.agree {r : Relations} {m n : Int} (h : r.Hold m n) : r.Agree (compare m n) := by
  have hcompares : (compare m n).Compares m n := (compare_iff m n).mp rfl
  exact
    { equal := h.equal.trans hcompares.eq_eq.symm
      less := h.less.trans hcompares.eq_lt.symm
      lessOrEqual := h.lessOrEqual.trans hcompares.ne_gt.symm
      greater := h.greater.trans hcompares.eq_gt.symm
      greaterOrEqual := h.greaterOrEqual.trans hcompares.ne_lt.symm }

end Relations

namespace Numeral

theorem hold_relations (a b : Numeral) : (a.relations b).Hold a.decimal b.decimal where
  equal := by
    rw [relations, decide_eq_true_iff, Int.ofNat_inj]
    exact ⟨congrArg decimal, decimal_inj⟩
  less := by
    rw [relations, decide_eq_true_iff, Int.ofNat_lt]
    rfl
  lessOrEqual := by
    rw [relations, decide_eq_true_iff, Int.ofNat_le]
    rfl
  greater := by
    rw [relations, decide_eq_true_iff, Int.ofNat_lt]
    rfl
  greaterOrEqual := by
    rw [relations, decide_eq_true_iff, Int.ofNat_le]
    rfl

/-- On words of 64 bits, a numeral stands to an integer as their numbers do. -/
theorem hold_relationsToInteger (a : Numeral) (i : Int64) :
    (a.relationsToInteger i).Hold a.decimal i.toInt where
  equal := by
    rw [relationsToInteger, decide_eq_true_iff, ← Int64.toInt_inj, toInt64, toInt_ofNat_decimal]
  less := by
    rw [relationsToInteger, decide_eq_true_iff, Int64.lt_iff_toInt_lt, toInt64, toInt_ofNat_decimal]
  lessOrEqual := by
    rw [relationsToInteger, decide_eq_true_iff, Int64.le_iff_toInt_le, toInt64, toInt_ofNat_decimal]
  greater := by
    rw [relationsToInteger, decide_eq_true_iff, Int64.lt_iff_toInt_lt, toInt64, toInt_ofNat_decimal]
  greaterOrEqual := by
    rw [relationsToInteger, decide_eq_true_iff, Int64.le_iff_toInt_le, toInt64, toInt_ofNat_decimal]

/-! ### Comparison -/

/-- A comparison is the order of the two numbers, unless the operand cannot be coerced. -/
theorem compareWith_eq (a : Numeral) (source : Operand.Source) :
    a.compareWith source = source.coerce.map fun o => compare (a.decimal : Int) o.decimal := by
  rw [compareWith]
  cases source.coerce <;> rfl

theorem compareWith_eq_error_iff {a : Numeral} {source : Operand.Source} {e : Fault} :
    a.compareWith source = .error e ↔ source.coerce = .error e := by
  rw [compareWith_eq, Outcome.map_eq_error_iff]

theorem compareWith_eq_ok_iff {a : Numeral} {source : Operand.Source} {order : Ordering} :
    a.compareWith source = .ok order ↔
      ∃ o, source.coerce = .ok o ∧ order.Compares (a.decimal : Int) o.decimal := by
  rw [compareWith_eq, Outcome.map_eq_ok_iff]
  simp only [compare_iff]

theorem equals_eq (a : Numeral) (source : Operand.Source) :
    a.equals source = (a.compareWith source).map (· == .eq) := by
  rw [equals]
  cases a.compareWith source <;> rfl

/-- The order of numerals is that of their numbers. -/
theorem compare_eq (a b : Numeral) : compare a b = compare (a.decimal : Int) b.decimal := by
  have hcompares : (compare a.decimal b.decimal).Compares a.decimal b.decimal :=
    (compare_iff _ _).mp rfl
  exact ((compare_iff _ _).mpr (Nat.strictMono_cast.compares.mpr hcompares)).symm

/-- The order of words is that of the integers that they are. -/
theorem compare_toInt64 (a : Numeral) (i : Int64) :
    compare a.toInt64 i = compare (a.decimal : Int) i.toInt := by
  show compareOfLessAndEq a.toInt64 i = compareOfLessAndEq (a.decimal : Int) i.toInt
  simp only [compareOfLessAndEq, Int64.lt_iff_toInt_lt, ← Int64.toInt_inj, toInt64, toInt_ofNat_decimal]

/-- **All ways agree.** A sum, a difference or a product of two numerals alone is what the operator
gives with the first on the left and the second on the right, in whatever shape that is given: the
numeral of the exact result, or the same fault, which holds it. A comparison fails exactly if the
operand cannot be coerced, with the fault of the coercion, and is otherwise the order of the two
numbers; being equal agrees with it. The relations of a numeral to any integer, each decided on words,
are those that the comparison says, and so are the relations of two numerals, the order of numerals and
the order of words. Exchanging two numerals reverses their comparison. -/
theorem paths_agree :
    (∀ (operator : Operator) (f : Numeral → Numeral → Except Fault Numeral),
      operator.ofNumerals? = some f → ∀ (a b : Numeral) (left right : Operand.Source),
        left.coerce = .ok (.numeral a) → right.Gives b →
          operator.applySources left right = (f a b).map .numeral ∧
          ∃ n, operator.exactResult? a.decimal b.decimal = some n ∧
            Answers n (operator.applySources left right)) ∧
    (∀ (a : Numeral) (source : Operand.Source),
      (∀ e, a.compareWith source = .error e ↔ source.coerce = .error e) ∧
      (∀ order, a.compareWith source = .ok order ↔
        ∃ o, source.coerce = .ok o ∧ order.Compares (a.decimal : Int) o.decimal) ∧
      (∀ e, a.equals source = .error e ↔ source.coerce = .error e) ∧
      (a.equals source = .ok true ↔ a.compareWith source = .ok .eq) ∧
      (a.equals source = .ok false ↔ ∃ order, a.compareWith source = .ok order ∧ order ≠ .eq)) ∧
    (∀ (a : Numeral) (i : Int64), ∃ order,
      a.compareWith (.operand (.plain i)) = .ok order ∧ compare a.toInt64 i = order ∧
        (a.relationsToInteger i).Agree order) ∧
    (∀ a b : Numeral, ∃ order,
      a.compareWith (.operand (.numeral b)) = .ok order ∧ compare a b = order ∧
        (a.relations b).Agree order ∧ b.compareWith (.operand (.numeral a)) = .ok order.swap) := by
  refine ⟨fun operator f hf a b left right hleft hright => ?_, fun a source => ?_, fun a i => ?_,
    fun a b => ?_⟩
  · have happly := Operator.applySources_of_gives hf hleft hright
    obtain ⟨n, hn, hexact⟩ := Operator.eq_ofInt_of_ofNumerals? hf a b
    refine ⟨happly, n, hn, ?_⟩
    rw [happly, hexact]
    exact answers_ofInt n
  · refine ⟨fun e => compareWith_eq_error_iff, fun order => compareWith_eq_ok_iff, fun e => ?_, ?_, ?_⟩
    · rw [equals_eq, Outcome.map_eq_error_iff, compareWith_eq_error_iff]
    · rw [equals_eq, Outcome.map_eq_ok_iff]
      simp
    · rw [equals_eq, Outcome.map_eq_ok_iff]
      simp
  · exact ⟨_, compareWith_eq a _, compare_toInt64 a i, (hold_relationsToInteger a i).agree⟩
  · refine ⟨_, compareWith_eq a _, compare_eq a b, (hold_relations a b).agree, ?_⟩
    rw [compareWith_eq, Int.compare_swap]
    rfl

/-- A sum that is out of range with the text of a numeral on the right, and the least integer, which
is far below every numeral. -/
theorem paths_agree_outermost :
    Operator.add.applySources (.operand (.numeral ⟨3998, by decide, by decide⟩))
        (.value (.text "II")) = .error (.range 4000) ∧
      add ⟨3998, by decide, by decide⟩ ⟨2, by decide, by decide⟩ = .error (.range 4000) ∧
      compareWith ⟨1, by decide, by decide⟩ (.operand (.plain Int64.minValue)) = .ok .gt ∧
      compareWith ⟨1, by decide, by decide⟩ (.value (.text "IIII")) =
        .error (.grammar "IIII" (.leftover [.I] .units)) := by
  obtain ⟨harithmetic, hcomparison, -⟩ := paths_agree
  have hsum : add ⟨3998, by decide, by decide⟩ ⟨2, by decide, by decide⟩ = .error (.range 4000) := rfl
  have hparse : parse "II" = .ok ⟨2, by decide, by decide⟩ := rfl
  have hless : Int64.minValue.toInt < 1 := by decide
  refine ⟨?_, hsum, ?_, ?_⟩
  · rw [(harithmetic .add add rfl _ _ _ _ rfl (.textValue hparse)).1, hsum]
    rfl
  · exact ((hcomparison _ _).2.1 _).mpr ⟨_, rfl, hless⟩
  · exact ((hcomparison _ _).1 _).mpr rfl

end Numeral

end Roman
