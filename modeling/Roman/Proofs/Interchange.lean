import Roman.Proofs.Answers
import Roman.Proofs.RoundTrips

/-!
# Operands that can be exchanged

An operator looks at the shapes of its operands, and where text is among them their order matters:
only text on the left of a numeral is concatenated. In a statement no operand is text, as tokens
stand for numbers. Of two integers the operators of keywords take the exact numbers, and where a
numeral takes part they take the numbers that the operands stand for (`Operator.applyNumeral_congr`).

So the operands of a sum or a product can be exchanged (`Operator.applyValues_comm`), an integer
beside a numeral can be written as a numeral (`Operator.applyValues_congr`), and no arithmetic gives
a text. Statements end as their operators do (`operands_interchange`).
-/

namespace Roman

/-! ### Operators of keywords -/

namespace Operator

variable {operator : Operator}

theorem applyNumeral_comm (h : operator = add ∨ operator = multiply) (l r : Operand) :
    operator.applyNumeral l r = operator.applyNumeral r l := by
  rcases h with rfl | rfl
  · rw [applyNumeral, applyNumeral, Int.add_comm]
  · rw [applyNumeral, applyNumeral, Int.mul_comm]

theorem integerApply_comm (h : operator = add ∨ operator = multiply) (i j : Int64) :
    Integer.apply operator i j = Integer.apply operator j i := by
  rcases h with rfl | rfl
  · rw [Integer.apply, Integer.apply, Int.add_comm]
  · rw [Integer.apply, Integer.apply, Int.mul_comm]

/-- The operands of a sum or a product of numbers can be exchanged. -/
theorem applyValues_comm (h : operator = add ∨ operator = multiply) {u v : Value} (hu : u.IsNumber)
    (hv : v.IsNumber) : operator.applyValues u v = operator.applyValues v u := by
  cases hu with
  | numeral a =>
    cases hv with
    | numeral b => exact applyNumeral_comm h (.numeral a) (.numeral b)
    | integer j => exact applyNumeral_comm h (.numeral a) (.plain j)
  | integer i =>
    cases hv with
    | numeral b => exact applyNumeral_comm h (.plain i) (.numeral b)
    | integer j => exact integerApply_comm h i j

/-- Where a numeral takes part, an operator of a keyword depends on the numbers of its operands
only. -/
theorem applyNumeral_congr {k : Keyword} (hk : k.operator? = some operator) {l l' r r' : Operand}
    (hl : l.decimal = l'.decimal) (hr : r.decimal = r'.decimal) :
    operator.applyNumeral l r = operator.applyNumeral l' r' := by
  cases k <;> cases hk <;> rw [applyNumeral, applyNumeral, hl, hr]

/-- Beside a numeral, an integer counts as the numeral of the same number. -/
theorem applyValues_congr {k : Keyword} (hk : k.operator? = some operator) {i : Int64} {n : Numeral}
    (hn : (n.decimal : Int) = i.toInt) (m : Numeral) :
    operator.applyValues (.integer i) (.numeral m) = operator.applyValues (.numeral n) (.numeral m) ∧
      operator.applyValues (.numeral m) (.integer i) =
        operator.applyValues (.numeral m) (.numeral n) := by
  constructor
  · show operator.applyNumeral (.plain i) (.numeral m) = operator.applyNumeral (.numeral n) (.numeral m)
    exact applyNumeral_congr hk hn.symm rfl
  · show operator.applyNumeral (.numeral m) (.plain i) = operator.applyNumeral (.numeral m) (.numeral n)
    exact applyNumeral_congr hk rfl hn.symm

end Operator

/-! ### Statements of arithmetic -/

/-- The statement with a keyword and two tokens. -/
def binary (k : Keyword) (a b : String) : String := k.word ++ " " ++ a ++ " " ++ b

theorem parse_binary (k : Keyword) {a b : String} (ha : IsTokenWord a) (hb : IsTokenWord b) :
    Command.parse (binary k a b) = .ok ⟨k, [a, b]⟩ := by
  have htext : binary k a b = " ".intercalate [k.word, a, b] := rfl
  rw [htext]
  exact Command.parse_intercalate k (by simp) (by simpa using ⟨ha, hb⟩)

theorem Keyword.category_of_operator? {k : Keyword} {operator : Operator}
    (h : k.operator? = some operator) : k.category = .arithmetic := by
  cases k <;> cases h <;> rfl

/-- A statement of arithmetic ends as its operator does. -/
theorem outcome_of_operator? {k : Keyword} {operator : Operator} (hk : k.operator? = some operator)
    {statement a b : String} (hparse : Command.parse statement = .ok ⟨k, [a, b]⟩) {s : Store}
    {u v : Value} (ha : s.resolve a = .ok u) (hb : s.resolve b = .ok v) :
    (executeStatement statement s).outcome =
      ((operator.applyValues u v).mapError (.operation k)).map some := by
  rw [outcome_of_parse hparse, Command.category, Keyword.category_of_operator? hk]
  show (Command.compute _ _).outcome = _
  simp only [Command.compute_eq, hk, ha, hb]

/-- All statements that are read as one of two commands end in the same way. -/
def EndAlike (s : Store) (c d : Command) : Prop :=
  ∀ statement other : String, Command.parse statement = .ok c → Command.parse other = .ok d →
    (executeStatement statement s).outcome = (executeStatement other s).outcome

section

variable {s : Store} {k : Keyword} {a b c : String}

/-- Statements with the same keyword end in the same way if the operator gives the same. -/
theorem endAlike_of_applyValues {d : String} {operator : Operator} (hk : k.operator? = some operator)
    {u v u' v' : Value} (ha : s.resolve a = .ok u) (hb : s.resolve b = .ok v)
    (hc : s.resolve c = .ok u') (hd : s.resolve d = .ok v')
    (h : operator.applyValues u v = operator.applyValues u' v') :
    EndAlike s ⟨k, [a, b]⟩ ⟨k, [c, d]⟩ := by
  intro statement other hstatement hother
  rw [outcome_of_operator? hk hstatement ha hb, outcome_of_operator? hk hother hc hd, h]

theorem endAlike_exchanged (hs : s.Valid) (hk : k = .add ∨ k = .multiply) {u v : Value}
    (ha : s.resolve a = .ok u) (hb : s.resolve b = .ok v) :
    EndAlike s ⟨k, [a, b]⟩ ⟨k, [b, a]⟩ := by
  obtain ⟨operator, hoperator, hcomm⟩ :
      ∃ operator, k.operator? = some operator ∧ (operator = .add ∨ operator = .multiply) := by
    rcases hk with rfl | rfl
    · exact ⟨_, rfl, .inl rfl⟩
    · exact ⟨_, rfl, .inr rfl⟩
  refine endAlike_of_applyValues hoperator ha hb hb ha ?_
  exact Operator.applyValues_comm hcomm (hs.isNumber_of_resolve ha) (hs.isNumber_of_resolve hb)

theorem endAlike_replaced {i : Int64} {m n : Numeral} (hcategory : k.category = .arithmetic)
    (ha : s.resolve a = .ok (.integer i)) (hb : s.resolve b = .ok (.numeral m))
    (hc : s.resolve c = .ok (.numeral n)) (hn : (n.decimal : Int) = i.toInt) :
    EndAlike s ⟨k, [a, b]⟩ ⟨k, [c, b]⟩ ∧ EndAlike s ⟨k, [b, a]⟩ ⟨k, [b, c]⟩ := by
  obtain ⟨-, operator, hk⟩ := Keyword.exists_operator hcategory
  obtain ⟨hleft, hright⟩ := Operator.applyValues_congr hk hn m
  exact ⟨endAlike_of_applyValues hk ha hb hc hb hleft, endAlike_of_applyValues hk hb ha hb hc hright⟩

theorem outcome_ne_text (hs : s.Valid) {statement : String} {c : Command}
    (hc : Command.parse statement = .ok c) (hcategory : c.category = .arithmetic) (text : String) :
    (executeStatement statement s).outcome ≠ .ok (some (.text text)) := by
  intro h
  rw [outcome_of_parse hc, hcategory] at h
  rcases Command.number_or_real_of_compute hs h with hnumber | ⟨x, hx⟩
  · cases hnumber
  · cases hx

end

/-- **Operands of statements can be exchanged.** After any calls of an interpreter the following
holds. Two tokens that stand for anything can be the arguments of a keyword. Statements for a sum or
a product of them end in the same way whichever of them comes first, with the same value or the same
error. No statement of arithmetic answers a text. And beside a token that stands for a numeral, a
token that stands for an integer from 1 to 3999 can be replaced with any token that stands for the
numeral of that integer, such as its canonical form: in all four operations, on either side,
statements end in the same way. -/
theorem operands_interchange (calls : List Call) :
    (∀ (k : Keyword) {a b : String} {u v : Value},
      (Store.after calls).resolve a = .ok u → (Store.after calls).resolve b = .ok v →
      Command.parse (binary k a b) = .ok ⟨k, [a, b]⟩) ∧
    (∀ {k : Keyword} {a b : String} {u v : Value}, k = .add ∨ k = .multiply →
      (Store.after calls).resolve a = .ok u → (Store.after calls).resolve b = .ok v →
      EndAlike (.after calls) ⟨k, [a, b]⟩ ⟨k, [b, a]⟩) ∧
    (∀ {statement : String} {c : Command}, Command.parse statement = .ok c →
      c.category = .arithmetic → ∀ text : String,
      (executeStatement statement (.after calls)).outcome ≠ .ok (some (.text text))) ∧
    (∀ {k : Keyword} {a b : String} {i : Int64} {m : Numeral}, k.category = .arithmetic →
      (Store.after calls).resolve a = .ok (.integer i) → 1 ≤ i.toInt → i.toInt ≤ 3999 →
      (Store.after calls).resolve b = .ok (.numeral m) →
      ∃ n : Numeral, (n.decimal : Int) = i.toInt ∧
        (Store.after calls).resolve n.canonical = .ok (.numeral n) ∧
        ∀ c : String, (Store.after calls).resolve c = .ok (.numeral n) →
          EndAlike (.after calls) ⟨k, [a, b]⟩ ⟨k, [c, b]⟩ ∧
            EndAlike (.after calls) ⟨k, [b, a]⟩ ⟨k, [b, c]⟩) := by
  have hs := Store.valid_after calls
  refine ⟨fun k _ _ _ _ ha hb => ?_, fun hk ha hb => endAlike_exchanged hs hk ha hb,
    fun hc hcategory text => outcome_ne_text hs hc hcategory text, ?_⟩
  · exact parse_binary k (isTokenWord_of_resolve ha) (isTokenWord_of_resolve hb)
  · intro k a b i m hcategory ha hone hmax hb
    obtain ⟨n, hn⟩ : ∃ n : Numeral, (n.decimal : Int) = i.toInt :=
      ⟨⟨i.toInt.toNat, by omega, by omega⟩, Int.toNat_of_nonneg (by omega)⟩
    exact ⟨n, hn, Store.resolve_toText (.numeral n) _,
      fun c hc => endAlike_replaced hcategory ha hb hc hn⟩

/-- A numeral and a variable that holds an integer: the sum is the same with the two exchanged, and
with the numeral of the integer, and so is what is said about a product that is out of range. -/
theorem operands_interchange_range :
    (executeStatement "add X a" (.after [.execute "set a 400"])).outcome =
        (executeStatement "add a X" (.after [.execute "set a 400"])).outcome ∧
      (executeStatement "multiply X a" (.after [.execute "set a 400"])).outcome =
        .error (.operation .multiply (.range 4000)) ∧
      (executeStatement "multiply X CD" (.after [.execute "set a 400"])).outcome =
        .error (.operation .multiply (.range 4000)) ∧
      ∀ text, (executeStatement "add X a" (.after [.execute "set a 400"])).outcome ≠
        .ok (some (.text text)) := by
  have hX : (Store.after [.execute "set a 400"]).resolve "X" =
      .ok (.numeral ⟨10, by decide, by decide⟩) := by cbv
  have ha : (Store.after [.execute "set a 400"]).resolve "a" = .ok (.integer 400) := by cbv
  have hCD : (Store.after [.execute "set a 400"]).resolve "CD" =
      .ok (.numeral ⟨400, by decide, by decide⟩) := by cbv
  have hproduct : (executeStatement "multiply X a" (.after [.execute "set a 400"])).outcome =
      .error (.operation .multiply (.range 4000)) := by cbv
  have hadd : Command.parse "add X a" = .ok ⟨.add, ["X", "a"]⟩ := by cbv
  obtain ⟨-, hexchanged, hnumber, hreplaced⟩ := operands_interchange [.execute "set a 400"]
  obtain ⟨n, hn, -, hsame⟩ := hreplaced (k := .multiply) rfl ha (by decide) (by decide) hX
  obtain rfl : n = ⟨400, by decide, by decide⟩ := Numeral.decimal_inj (Int.ofNat_inj.mp hn)
  refine ⟨hexchanged (.inl rfl) hX ha _ _ hadd (by cbv), hproduct, ?_, hnumber hadd rfl⟩
  rw [← (hsame "CD" hCD).2 "multiply X a" "multiply X CD" (by cbv) (by cbv), hproduct]

/-- Operands that are given to an operator directly cannot be exchanged if one of them is text. -/
example : Operator.applyValues .add (.text "X") (.numeral ⟨5, by decide, by decide⟩) = .ok (.text "XV") ∧
    Operator.applyValues .add (.numeral ⟨5, by decide, by decide⟩) (.text "X") =
      .ok (.numeral ⟨15, by decide, by decide⟩) := by
  constructor <;> cbv

end Roman
