import Roman.Proofs.ErrorSurface
import Roman.Proofs.Parsing
import Roman.Proofs.Substitution

/-!
# Values and messages of statements

What the value of a statement can be (`Value.IsAnswer`): a number, a real, or the text of a number.
Arithmetic never gives a text (`number_or_real_of_applyValues`), and conversion gives a number; a text
comes from showing a number only. So whatever a statement answers is written on one line
(`Value.IsAnswer.oneLine`).

So is the message of a statement that fails (`Surfaces.oneLine_message`): apart from numbers it cites
words of the statement, and a line feed is part of no word. That is not so for every error: the one
for a text that is no numeral cites the text, line feeds and all, but it never surfaces.
-/

namespace Roman

/-- What the value of a statement can be. -/
inductive Value.IsAnswer : Value → Prop where
  /-- A number. -/
  | number {v : Value} (h : v.IsNumber) : IsAnswer v
  /-- A real. -/
  | real (x : Float) : IsAnswer (.real x)
  /-- The text of a number. -/
  | shown {v : Value} (h : v.IsNumber) : IsAnswer (.text v.toText)

/-! ### What statements answer -/

/-- What an operator makes of two numbers is a number or a real. -/
theorem number_or_real_of_applyValues {operator : Operator} {left right v : Value}
    (hleft : left.IsNumber) (hright : right.IsNumber) (h : operator.applyValues left right = .ok v) :
    v.IsNumber ∨ ∃ x, v = .real x := by
  obtain ⟨l, hl, hl_text, -, -⟩ := hleft.exists_operand
  obtain ⟨r, hr, -, -, -⟩ := hright.exists_operand
  have hl_coerce : (Operand.Source.value left).coerce = .ok l := hl
  have hr_coerce : (Operand.Source.value right).coerce = .ok r := hr
  rw [Operator.applyValues, Operator.applySources_of_coerce hl_coerce hr_coerce] at h
  have hentry := Operator.tabled_apply operator r hl_coerce
  generalize operator.apply l r = outcome at h hentry
  cases hentry with
  | quotient =>
    cases h
    exact .inr ⟨_, rfl⟩
  | @integers i j hoperator hi hj =>
    have houtcome := Operator.integerOutcome_apply (a := i) (b := j) hoperator
    rw [h] at houtcome
    cases houtcome with
    | integer n => exact .inl (.integer n)
    | real _ _ x => exact .inr ⟨x, rfl⟩
  -- only a text in front concatenates, and a number is none
  | @concatenation a b s hoperator hla => exact absurd hla (hl_text a)
  | numeral =>
    cases h
    exact .inl (.numeral _)
  | refused | divisionByZero | range => cases h

/-- What a number is converted to is a number. -/
theorem Value.IsNumber.of_converted {v w : Value} (h : Command.converted v = .ok w) : w.IsNumber := by
  cases v with
  | numeral n =>
    cases h
    exact .integer _
  | integer i =>
    obtain ⟨n, -, rfl⟩ := Outcome.map_eq_ok_iff.mp h
    exact .numeral n
  | real x => cases h
  | text s => cases h

namespace Command

variable {c : Command} {s : Store} {v : Value}

/-- Arithmetic answers a number or a real. -/
theorem number_or_real_of_compute (hs : s.Valid) (h : (c.compute s).outcome = .ok (some v)) :
    v.IsNumber ∨ ∃ x, v = .real x := by
  rw [compute_eq] at h
  split at h
  next => cases h
  next operator _ =>
    split at h
    next a b _ =>
      split at h
      next => cases h
      next left hleft =>
        split at h
        next => cases h
        next right hright =>
          obtain ⟨w, hw, hwv⟩ := Outcome.map_eq_ok_iff.mp h
          cases hwv
          exact number_or_real_of_applyValues (hs.isNumber_of_resolve hleft)
            (hs.isNumber_of_resolve hright) (Outcome.mapError_eq_ok_iff.mp hw)
    next => cases h

theorem isAnswer_of_compute (hs : s.Valid) (h : (c.compute s).outcome = .ok (some v)) : v.IsAnswer := by
  rcases number_or_real_of_compute hs h with hnumber | ⟨x, rfl⟩
  · exact .number hnumber
  · exact .real x

theorem isAnswer_of_convert (h : (c.convert s).outcome = .ok (some v)) : v.IsAnswer := by
  rw [convert_eq] at h
  split at h
  next token _ =>
    split at h
    next value _ =>
      obtain ⟨w, hw, hwv⟩ := Outcome.map_eq_ok_iff.mp h
      cases hwv
      exact .number (.of_converted (Outcome.mapError_eq_ok_iff.mp hw))
    next => cases h
  next => cases h

theorem isAnswer_of_display (hs : s.Valid) (h : (c.display s).outcome = .ok (some v)) :
    v.IsAnswer := by
  rw [display_eq] at h
  split at h
  next token _ =>
    split at h
    next value hvalue =>
      cases h
      exact .shown (hs.isNumber_of_resolve hvalue)
    next => cases h
  next => cases h

/-- In a valid store, what a command answers in any category is a number, a real or the text of a
number. -/
theorem isAnswer_of_handle (hs : s.Valid) {category : Category}
    (h : (c.handle category s).outcome = .ok (some v)) : v.IsAnswer := by
  cases category with
  | assignment =>
    have hstep := c.handled s .assignment
    generalize c.handle .assignment s = step at h hstep
    cases hstep with
    | failed => cases h
    | answered hcategory => exact absurd rfl hcategory
    | stored => cases h
  | arithmetic => exact isAnswer_of_compute hs h
  | conversion => exact isAnswer_of_convert h
  | display => exact isAnswer_of_display hs h

end Command

/-- What a statement answers in a valid store. -/
theorem isAnswer_of_executeStatement {statement : String} {s : Store} (hs : s.Valid) {v : Value}
    (h : (executeStatement statement s).outcome = .ok (some v)) : v.IsAnswer := by
  rw [executeStatement_eq] at h
  split at h
  next c _ => exact Command.isAnswer_of_handle hs h
  next => cases h

/-! ### Texts of one line -/

/-- A text is written on one line. -/
def OneLine (text : String) : Prop := '\n' ∉ text.toList

instance (text : String) : Decidable (OneLine text) := inferInstanceAs (Decidable ('\n' ∉ text.toList))

theorem OneLine.append {a b : String} (ha : OneLine a) (hb : OneLine b) : OneLine (a ++ b) := by
  rw [OneLine, String.toList_append, List.mem_append, not_or]
  exact ⟨ha, hb⟩

theorem lineFeed_not_mem_toDigits (n : Nat) : '\n' ∉ Nat.toDigits 10 n := fun h =>
  absurd (Nat.isDigit_of_mem_toDigits (by decide) (by decide) h) (by decide)

theorem oneLine_repr (n : Nat) : OneLine n.repr := by
  rw [OneLine, Nat.toList_repr]
  exact lineFeed_not_mem_toDigits n

theorem oneLine_toString (n : Int) : OneLine (toString n) := by
  show OneLine n.repr
  rw [Int.repr_eq_if]
  split
  · exact oneLine_repr _
  · exact .append (by decide) (oneLine_repr _)

theorem oneLine_canonical (n : Numeral) : OneLine n.canonical := by
  rw [OneLine, Numeral.toList_canonical, List.mem_map]
  rintro ⟨a, -, ha⟩
  exact absurd ha (by cases a <;> decide)

namespace Decimal

variable (d : Decimal)

theorem lineFeed_not_mem_digits : '\n' ∉ d.digits := lineFeed_not_mem_toDigits d.coefficient

theorem oneLine_positional (pointZero : Bool) : OneLine (d.positional pointZero) := by
  have hdigits := d.lineFeed_not_mem_digits
  have htake (n : Nat) : '\n' ∉ d.digits.take n := fun h => hdigits (List.mem_of_mem_take h)
  have hdrop (n : Nat) : '\n' ∉ d.digits.drop n := fun h => hdigits (List.mem_of_mem_drop h)
  rw [OneLine, positional]
  dsimp only
  split
  · cases pointZero <;> simp [hdigits]
  · split
    · simp [hdigits]
    · simp [htake, hdrop]

theorem oneLine_scientific : OneLine d.scientific := by
  have hdigits := d.lineFeed_not_mem_digits
  have htake : '\n' ∉ d.digits.take 1 := fun h => hdigits (List.mem_of_mem_take h)
  have hdrop : '\n' ∉ d.digits.drop 1 := fun h => hdigits (List.mem_of_mem_drop h)
  rw [scientific]
  refine .append (.append ?_ (by decide)) (oneLine_toString d.magnitude)
  rw [OneLine, String.toList_ofList, List.mem_append, not_or]
  refine ⟨htake, ?_⟩
  split
  · simp
  · simpa using hdrop

end Decimal

theorem Layout.oneLine_decimal (layout : Layout) (d : Decimal) : OneLine (layout.decimal d) := by
  rw [decimal]
  split
  · exact d.oneLine_positional _
  · exact d.oneLine_scientific

theorem Layout.oneLine_real (layout : Layout) (x : Float) : OneLine (layout.real x) := by
  rw [real]
  have hsign : OneLine (if x.toBits.toNat / Nat.pow 2 63 = 1 then "-" else "") := by
    split <;> decide
  split
  · split
    · exact hsign.append (by decide)
    · decide
  · split
    · exact hsign.append (layout.oneLine_decimal _)
    · exact hsign.append (layout.oneLine_decimal _)

theorem Value.IsNumber.oneLine {v : Value} (h : v.IsNumber) : OneLine v.toText := by
  cases h with
  | numeral n => exact oneLine_canonical n
  | integer i => exact oneLine_toString i.toInt

/-- What a statement answers is written on one line. -/
theorem Value.IsAnswer.oneLine {v : Value} (h : v.IsAnswer) : OneLine v.toText := by
  cases h with
  | number h => exact h.oneLine
  | real x => exact Layout.value.oneLine_real x
  | shown h => exact h.oneLine

/-! ### Messages of one line

A message is put together from its left end. Its fixed parts are decided, and what stands between
them is a word or a number, which a lemma is about. -/

theorem IsTokenWord.oneLine {word : String} (h : IsTokenWord word) : OneLine word :=
  h.not_mem (by decide)

theorem Keyword.oneLine_word (k : Keyword) : OneLine k.word := k.isTokenWord_word.oneLine

theorem Command.oneLine_of_mem_arguments {statement : String} {c : Command}
    (hparse : parse statement = .ok c) {token : String} (h : token ∈ c.arguments) : OneLine token :=
  (isTokenWord_of_words? (words?_of_parse hparse) token (List.mem_cons_of_mem _ h)).oneLine

theorem Malformed.oneLine_wrongCount (k : Keyword) (expected found : Nat) :
    OneLine (wrongCount k expected found).message := by
  have hkeyword : OneLine ("'" ++ k.word) := .append (by decide) k.oneLine_word
  have hexpected := (hkeyword.append (b := "' expects ") (by decide)).append (oneLine_repr expected)
  have hplural : OneLine (if expected = 1 then "" else "s") := by split <;> decide
  exact .append (.append (.append (hexpected.append (by decide)) hplural) (by decide))
    (oneLine_repr found)

theorem Fault.oneLine_range (n : Int) : OneLine (range n).message := by
  have hvalue : OneLine ("Value " ++ toString n) := .append (by decide) (oneLine_toString n)
  have hlowest := oneLine_repr Numeral.lowest
  have hhighest := oneLine_repr Numeral.highest
  exact .append (.append (.append (.append (hvalue.append (by decide)) hlowest) (by decide)) hhighest)
    (by decide)

theorem StatementError.oneLine_operation (k : Keyword) {f : Fault} (h : OneLine f.message) :
    OneLine (operation k f).message :=
  .append (.append (.append (by decide) k.oneLine_word) (by decide)) h

/-- The message of an error that surfaces is written on one line. -/
theorem Surfaces.oneLine_message {statement : String} {s : Store} {e : StatementError}
    (h : Surfaces statement s e) : OneLine e.message := by
  cases h with
  | severalStatements | tooShort => decide
  | unknownKeyword hwords =>
    have hword := (isTokenWord_of_words? hwords _ List.mem_cons_self).oneLine
    exact .append (by decide) (.append (.append (by decide) hword) (by decide))
  | wrongCount => exact .append (by decide) (Malformed.oneLine_wrongCount _ _ _)
  | unresolved hparse htoken =>
    have hword := Command.oneLine_of_mem_arguments hparse htoken
    exact .append (.append (.append (by decide) hword) (by decide)) (by decide)
  | literalTooLarge hparse htoken =>
    have hword := Command.oneLine_of_mem_arguments hparse htoken
    exact .append (.append (by decide) hword) (by decide)
  | @invalidName c name _ hparse _ harguments =>
    have hname : OneLine name :=
      Command.oneLine_of_mem_arguments hparse (harguments ▸ List.mem_cons_self)
    exact .append (.append (by decide) hname) (by decide)
  | overflow | divisionByZero => exact StatementError.oneLine_operation _ (by decide)
  | range => exact StatementError.oneLine_operation _ (Fault.oneLine_range _)
  | noNumeral => exact Fault.oneLine_range _

end Roman
