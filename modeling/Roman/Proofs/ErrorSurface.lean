import Roman.Proofs.Moments
import Roman.Proofs.OperatorTable
import Roman.Proofs.ReadBack
import Roman.Proofs.Words

/-!
# How statements fail

There are errors for more than can go wrong: for a real or a text that is to be converted, stored
or computed with, for a keyword of arithmetic without an operator, for a token that is a numeral and
is not read as one. No statement ever ends in one of these. `Surfaces` says which errors are left,
and what each of them says about the statement and the store.

Whatever the store, a command fails in one of five ways (`Command.Fails`): it has the wrong number
of arguments, one of them stands for nothing, no variable is made, or an operator or a conversion
fails. The rest depends on the values. In a store that an interpreter has, tokens stand for numerals
and integers only (`Store.Valid.isNumber_of_resolve`), and the operators that keywords have refuse
none of these (`Operator.not_refuses`), so the table of operators leaves few faults
(`surfaces_of_applyValues`). And a statement that was cut out of a line has no separator in it, so
that it is not taken for several (`exists_words?_of_not_mem`).
-/

namespace Roman

/-! ### What a token stands for -/

/-- A value that is a number: neither a real nor a text. -/
inductive Value.IsNumber : Value → Prop where
  /-- A numeral. -/
  | numeral (n : Numeral) : IsNumber (.numeral n)
  /-- An integer. -/
  | integer (i : Int64) : IsNumber (.integer i)

theorem Numeral.not_accepts_of_parse {text : String} {r : Rejection} (h : parse text = .error r) :
    accepts text = false := by
  rw [parse] at h
  rw [accepts]
  cases hs : Spelling.ofText text with
  | ok s =>
    rw [hs] at h
    cases h
  | error r => rfl

namespace Store

/-- In a valid store, a token that stands for anything stands for a number. -/
theorem Valid.isNumber_of_resolve {s : Store} (hs : s.Valid) {token : String} {value : Value}
    (h : s.resolve token = .ok value) : value.IsNumber := by
  rw [resolve] at h
  split at h
  next n _ =>
    cases h
    exact .numeral n
  next =>
    split at h
    next n _ =>
      obtain ⟨-, rfl⟩ := integerOfLiteral_eq_ok_iff.mp h
      exact .integer _
    next =>
      obtain ⟨v, hv, rfl⟩ := Outcome.map_eq_ok_iff.mp h
      have hstands := hs.standsAt (mem_of_find? ((s.get_eq_ok_iff token v).mp hv))
      rcases hstands.value_eq with ⟨n, hn, -⟩ | ⟨i, hi⟩
      · exact hn ▸ .numeral n
      · exact hi ▸ .integer i

/-- The value that a token stands for, found in steps: it is asked whether the token is a numeral,
and if so, the token is read, and fails if it is none. -/
def resolveChecked (s : Store) (token : String) : Except StatementError Value :=
  if Numeral.accepts token then ((Numeral.ofText token).mapError .numeral).map .numeral
  else if isDigits token then integerOfLiteral token (ofDigits token)
  else (s.get token).map Variable.value

/-- A token that is a numeral is read as one, so the second step never fails. -/
theorem resolve_eq_resolveChecked (s : Store) (token : String) :
    s.resolve token = s.resolveChecked token := by
  rw [resolve, resolveChecked, Numeral.ofText, Numeral.parse, Numeral.accepts]
  cases Spelling.ofText token with
  | ok spelling => rfl
  | error r =>
    rw [natural?]
    by_cases hdigits : isDigits token = true
    · rw [if_pos hdigits, if_pos hdigits]
      rfl
    · rw [if_neg hdigits, if_neg hdigits]
      rfl

/-- A token stands for nothing if it is a literal that is too large, or neither a numeral nor a
literal nor a name. -/
theorem resolve_eq_error {s : Store} {token : String} {e : StatementError}
    (h : s.resolve token = .error e) :
    (isDigits token = true ∧ Int64.maxValue.toInt < ofDigits token ∧ e = .literalTooLarge token) ∨
      (Numeral.accepts token = false ∧ isDigits token = false ∧ s.find? token = none ∧
        e = .unresolved token) := by
  rw [resolve] at h
  split at h
  next => cases h
  next r hr =>
    rw [natural?] at h
    by_cases hdigits : isDigits token = true
    · rw [if_pos hdigits] at h
      dsimp only at h
      rw [integerOfLiteral] at h
      split at h
      next => cases h
      next hlarge =>
        cases h
        exact .inl ⟨hdigits, Int.not_le.mp hlarge, rfl⟩
    · rw [if_neg hdigits] at h
      have hget : s.get token = .error e := Outcome.map_eq_error_iff.mp h
      rw [get] at hget
      split at hget
      next => cases hget
      next hfind =>
        cases hget
        exact .inr ⟨Numeral.not_accepts_of_parse hr, Bool.eq_false_iff.mpr hdigits, hfind, rfl⟩

end Store

/-! ### How a command fails -/

/-- The number of arguments that a keyword takes. -/
def Keyword.arity : Keyword → Nat
  | set | add | subtract | multiply | divide => 2
  | convert | display => 1

/-- How a command fails on a store, whatever that holds. -/
inductive Command.Fails (c : Command) (s : Store) : StatementError → Prop where
  /-- The keyword does not take as many arguments. -/
  | counted (hcount : c.arguments.length ≠ c.keyword.arity) :
      Fails c s (.malformed (.wrongCount c.keyword c.keyword.arity c.arguments.length))
  /-- An argument stands for nothing. -/
  | resolved {token : String} {e : StatementError} (htoken : token ∈ c.arguments)
      (h : s.resolve token = .error e) : Fails c s e
  /-- A name and a value make no variable. -/
  | bound {name token : String} {value : Value} {e : StatementError} (hkeyword : c.keyword = .set)
      (harguments : c.arguments = [name, token]) (hvalue : s.resolve token = .ok value)
      (h : Variable.make name value = .error e) : Fails c s e
  /-- An operator fails. -/
  | applied {a b : String} {operator : Operator} {left right : Value} {f : Fault}
      (hoperator : c.keyword.operator? = some operator) (harguments : c.arguments = [a, b])
      (ha : s.resolve a = .ok left) (hb : s.resolve b = .ok right)
      (h : operator.applyValues left right = .error f) : Fails c s (.operation c.keyword f)
  /-- A conversion fails. -/
  | converted {token : String} {value : Value} {f : Fault} (hkeyword : c.keyword = .convert)
      (harguments : c.arguments = [token]) (hvalue : s.resolve token = .ok value)
      (h : Command.converted value = .error f) : Fails c s (.numeral f)

/-- The keywords of arithmetic take two arguments and have an operator. -/
theorem Keyword.exists_operator {k : Keyword} (h : k.category = .arithmetic) :
    k.arity = 2 ∧ ∃ operator, k.operator? = some operator := by
  cases k <;> cases h <;> exact ⟨rfl, _, rfl⟩

namespace Command

variable {c : Command} {s : Store} {e : StatementError}

theorem Fails.of_not_two (harity : c.keyword.arity = 2) (h : ∀ a b, c.arguments = [a, b] → False) :
    Fails c s (.malformed (.wrongCount c.keyword 2 c.arguments.length)) := by
  rw [← harity]
  refine .counted fun hlength => ?_
  obtain ⟨a, b, hab⟩ := List.length_eq_two.mp (hlength.trans harity)
  exact h a b hab

theorem Fails.of_not_one (harity : c.keyword.arity = 1) (h : ∀ a, c.arguments = [a] → False) :
    Fails c s (.malformed (.wrongCount c.keyword 1 c.arguments.length)) := by
  rw [← harity]
  refine .counted fun hlength => ?_
  obtain ⟨a, ha⟩ := List.length_eq_one_iff.mp (hlength.trans harity)
  exact h a ha

theorem fails_of_assign (hkeyword : c.keyword = .set) (h : (c.assign s).outcome = .error e) :
    Fails c s e := by
  rw [assign_eq] at h
  split at h
  next name token harguments =>
    split at h
    next value hvalue =>
      split at h
      next => cases h
      next hbound =>
        cases h
        exact .bound hkeyword harguments hvalue hbound
    next hvalue =>
      cases h
      exact .resolved (by simp [harguments]) hvalue
  next hcount =>
    cases h
    exact .of_not_two (by rw [hkeyword, Keyword.arity]) hcount

theorem fails_of_compute (hcategory : c.keyword.category = .arithmetic)
    (h : (c.compute s).outcome = .error e) : Fails c s e := by
  obtain ⟨harity, operator, hoperator⟩ := Keyword.exists_operator hcategory
  rw [compute_eq, hoperator] at h
  dsimp only at h
  split at h
  next a b harguments =>
    split at h
    next hleft =>
      cases h
      exact .resolved (by simp [harguments]) hleft
    next left hleft =>
      split at h
      next hright =>
        cases h
        exact .resolved (by simp [harguments]) hright
      next right hright =>
        obtain ⟨f, hvalue, rfl⟩ := Outcome.mapError_eq_error_iff.mp (Outcome.map_eq_error_iff.mp h)
        exact .applied hoperator harguments hleft hright hvalue
  next hcount =>
    cases h
    exact .of_not_two harity hcount

theorem fails_of_convert (hkeyword : c.keyword = .convert) (h : (c.convert s).outcome = .error e) :
    Fails c s e := by
  rw [convert_eq] at h
  split at h
  next token harguments =>
    split at h
    next value hvalue =>
      obtain ⟨f, hother, rfl⟩ := Outcome.mapError_eq_error_iff.mp (Outcome.map_eq_error_iff.mp h)
      exact .converted hkeyword harguments hvalue hother
    next hvalue =>
      cases h
      exact .resolved (by simp [harguments]) hvalue
  next hcount =>
    cases h
    exact .of_not_one (by rw [hkeyword, Keyword.arity]) hcount

theorem fails_of_display (hkeyword : c.keyword = .display) (h : (c.display s).outcome = .error e) :
    Fails c s e := by
  rw [display_eq] at h
  split at h
  next token harguments =>
    split at h
    next => cases h
    next hvalue =>
      cases h
      exact .resolved (by simp [harguments]) hvalue
  next hcount =>
    cases h
    exact .of_not_one (by rw [hkeyword, Keyword.arity]) hcount

/-- A command that is carried out in its own category fails in one of the five ways. -/
theorem fails_of_handle (h : (c.handle c.category s).outcome = .error e) : Fails c s e := by
  rw [category] at h
  cases hkeyword : c.keyword with
  | set =>
    rw [hkeyword] at h
    exact fails_of_assign hkeyword h
  | add | subtract | multiply | divide =>
    have hcategory : c.keyword.category = .arithmetic := by rw [hkeyword, Keyword.category]
    rw [hcategory] at h
    exact fails_of_compute hcategory h
  | convert =>
    rw [hkeyword] at h
    exact fails_of_convert hkeyword h
  | display =>
    rw [hkeyword] at h
    exact fails_of_display hkeyword h

/-- All that can be wrong with a command itself is the number of its arguments. -/
theorem Fails.eq_wrongCount {m : Malformed} (h : Fails c s (.malformed m)) :
    m = .wrongCount c.keyword c.keyword.arity c.arguments.length := by
  cases h with
  | counted => rfl
  | resolved _ h => rcases Store.resolve_eq_error h with ⟨-, -, he⟩ | ⟨-, -, -, he⟩ <;> cases he
  | bound _ _ _ h =>
    rw [Variable.make] at h
    split at h
    next => cases h
    next => split at h <;> cases h

end Command

/-! ### The errors that surface -/

/-- The fault that an error holds, of an operation or of a conversion. -/
def StatementError.fault? : StatementError → Option Fault
  | operation _ source => some source
  | numeral fault => some fault
  | malformed _ | unresolved _ | invalidName _ | literalTooLarge _ => none

/-- The errors with which a statement can end on a store. -/
inductive Surfaces (statement : String) (s : Store) : StatementError → Prop where
  /-- A separator stands before the end. -/
  | severalStatements (hwords : words? statement = none) :
      Surfaces statement s (.malformed .severalStatements)
  /-- There are not two words. -/
  | tooShort {words : List String} (hwords : words? statement = some words)
      (hlength : words.length < 2) : Surfaces statement s (.malformed .tooShort)
  /-- The first word is no keyword. -/
  | unknownKeyword {word : String} {arguments : List String}
      (hwords : words? statement = some (word :: arguments)) (hword : Keyword.ofWord? word = none) :
      Surfaces statement s (.malformed (.unknownKeyword word))
  /-- The number of arguments is not the one of the keyword. -/
  | wrongCount {c : Command} (hparse : Command.parse statement = .ok c)
      (hcount : c.arguments.length ≠ c.keyword.arity) :
      Surfaces statement s
        (.malformed (.wrongCount c.keyword c.keyword.arity c.arguments.length))
  /-- An argument is neither a numeral nor a literal nor the name of a variable. -/
  | unresolved {c : Command} {token : String} (hparse : Command.parse statement = .ok c)
      (htoken : token ∈ c.arguments) (hnumeral : Numeral.accepts token = false)
      (hdigits : isDigits token = false) (hfind : s.find? token = none) :
      Surfaces statement s (.unresolved token)
  /-- An argument is a literal that does not fit into 64 bits. -/
  | literalTooLarge {c : Command} {token : String} (hparse : Command.parse statement = .ok c)
      (htoken : token ∈ c.arguments) (hdigits : isDigits token = true)
      (hlarge : Int64.maxValue.toInt < ofDigits token) :
      Surfaces statement s (.literalTooLarge token)
  /-- An assignment to a name that no variable may have. -/
  | invalidName {c : Command} {name token : String} (hparse : Command.parse statement = .ok c)
      (hkeyword : c.keyword = .set) (harguments : c.arguments = [name, token])
      (hname : Variable.isName name = false) : Surfaces statement s (.invalidName name)
  /-- The result of two integers does not fit into 64 bits. -/
  | overflow {c : Command} {operator : Operator} {a b : String} {i j : Int64} {n : Int}
      (hparse : Command.parse statement = .ok c) (hoperator : c.keyword.operator? = some operator)
      (harguments : c.arguments = [a, b]) (ha : s.resolve a = .ok (.integer i))
      (hb : s.resolve b = .ok (.integer j))
      (hresult : operator.exactResult? i.toInt j.toInt = some n)
      (hlarge : n < Int64.minValue.toInt ∨ Int64.maxValue.toInt < n) :
      Surfaces statement s (.operation c.keyword .overflow)
  /-- The result of two arguments, of which one is a numeral, has no numeral. -/
  | range {c : Command} {operator : Operator} {a b : String} {left right : Value} {l r : Operand}
      {n : Int} (hparse : Command.parse statement = .ok c)
      (hoperator : c.keyword.operator? = some operator) (harguments : c.arguments = [a, b])
      (ha : s.resolve a = .ok left) (hb : s.resolve b = .ok right)
      (hnumeral : (∃ m, left = .numeral m) ∨ ∃ m, right = .numeral m)
      (hl : Operand.ofValue left = .ok l) (hr : Operand.ofValue right = .ok r)
      (hresult : operator.exactResult? l.decimal r.decimal = some n) (hrange : n < 1 ∨ 3999 < n) :
      Surfaces statement s (.operation c.keyword (.range n))
  /-- A division by the integer zero. -/
  | divisionByZero {c : Command} {a b : String} {left : Value}
      (hparse : Command.parse statement = .ok c) (hkeyword : c.keyword = .divide)
      (harguments : c.arguments = [a, b]) (ha : s.resolve a = .ok left)
      (hb : s.resolve b = .ok (.integer 0)) :
      Surfaces statement s (.operation c.keyword .divisionByZero)
  /-- A conversion of an integer that has no numeral. -/
  | noNumeral {c : Command} {token : String} {i : Int64} (hparse : Command.parse statement = .ok c)
      (hkeyword : c.keyword = .convert) (harguments : c.arguments = [token])
      (htoken : s.resolve token = .ok (.integer i)) (hrange : i.toInt < 1 ∨ 3999 < i.toInt) :
      Surfaces statement s (.numeral (.range i.toInt))

/-- A fault that surfaces is that of a number that has no numeral, of an integer that does not fit,
or of a division by zero. -/
theorem Surfaces.fault {statement : String} {s : Store} {e : StatementError} {f : Fault}
    (h : Surfaces statement s e) (hf : e.fault? = some f) :
    (∃ n, f = .range n) ∨ f = .overflow ∨ f = .divisionByZero := by
  cases h with
  | overflow =>
    cases hf
    exact .inr (.inl rfl)
  | range =>
    cases hf
    exact .inl ⟨_, rfl⟩
  | divisionByZero =>
    cases hf
    exact .inr (.inr rfl)
  | noNumeral =>
    cases hf
    exact .inl ⟨_, rfl⟩
  | severalStatements | tooShort | unknownKeyword | wrongCount | unresolved | literalTooLarge
  | invalidName => cases hf

section

variable {statement : String} {s : Store} {e : StatementError} {c : Command}

/-! ### Numbers under the operators of keywords -/

/-- No keyword has an operator that only integers have. -/
theorem Keyword.operator?_ne_integral {k : Keyword} {operator : Operator}
    (h : k.operator? = some operator) :
    operator ≠ .floorDivide ∧ operator ≠ .modulo ∧ operator ≠ .power := by
  cases k <;> cases h <;> decide

theorem Keyword.eq_divide_of_operator? {k : Keyword} (h : k.operator? = some .divide) :
    k = .divide := by
  cases k <;> cases h
  rfl

/-- An operator of a keyword refuses text only. -/
theorem Operator.not_refuses {k : Keyword} {operator : Operator} (hk : k.operator? = some operator)
    {l r : Operand} (hl : ∀ n, l ≠ .text n) (hr : ∀ n, r ≠ .text n) : ¬ operator.Refuses l r := by
  intro h
  cases h with
  | textText a b => exact hl a rfl
  | textPlain a j => exact hl a rfl
  | plainText i b => exact hr b rfl
  | numeralShaped hoperator hshape =>
    obtain ⟨hfloor, hmodulo, hpower⟩ := Keyword.operator?_ne_integral hk
    rcases hoperator with hoperator | hoperator | hoperator
    · exact hfloor hoperator
    · exact hmodulo hoperator
    · exact hpower hoperator

/-- An operator of a keyword, other than the quotient, fails on two integers only if the exact
result does not fit. -/
theorem Operator.exists_exactResult?_of_error {k : Keyword} {operator : Operator}
    (hk : k.operator? = some operator) (hdivide : operator ≠ .divide) {i j : Int64} {f : Fault}
    (h : Integer.apply operator i j = .error f) :
    ∃ n, operator.exactResult? i.toInt j.toInt = some n ∧ f = .overflow ∧
      (n < Int64.minValue.toInt ∨ Int64.maxValue.toInt < n) := by
  have hnarrow {n : Int} (hn : (Integer.narrow n).map Value.integer = .error f) :
      f = .overflow ∧ (n < Int64.minValue.toInt ∨ Int64.maxValue.toInt < n) :=
    Integer.narrow_eq_error_iff.mp (Outcome.map_eq_error_iff.mp hn)
  obtain ⟨hfloor, hmodulo, hpower⟩ := Keyword.operator?_ne_integral hk
  cases operator with
  | add => exact ⟨_, rfl, hnarrow h⟩
  | subtract => exact ⟨_, rfl, hnarrow h⟩
  | multiply => exact ⟨_, rfl, hnarrow h⟩
  | divide => exact absurd rfl hdivide
  | floorDivide => exact absurd rfl hfloor
  | modulo => exact absurd rfl hmodulo
  | power => exact absurd rfl hpower

/-- A number is coerced to an operand of its kind. -/
theorem Value.IsNumber.exists_operand {v : Value} (h : v.IsNumber) :
    ∃ o, Operand.ofValue v = .ok o ∧ (∀ n, o ≠ .text n) ∧
      (∀ n, o = .numeral n → v = .numeral n) ∧ ∀ i, o = .plain i → v = .integer i := by
  cases h with
  | numeral n => exact ⟨.numeral n, rfl, nofun, fun _ h => by cases h; rfl, nofun⟩
  | integer i => exact ⟨.plain i, rfl, nofun, nofun, fun _ h => by cases h; rfl⟩

/-- Of the operands that are no text, only the integer zero is zero. -/
theorem Operand.eq_plain_zero {o : Operand} (ho : ∀ n, o ≠ .text n) (h : o.decimal = 0) :
    o = .plain 0 := by
  cases o with
  | numeral n =>
    have hpos := n.one_le
    rw [decimal] at h
    omega
  | text n => exact absurd rfl (ho n)
  | plain i =>
    have hi : i.toInt = (0 : Int64).toInt := h
    rw [Int64.toInt_inj.mp hi]

theorem surfaces_of_applyValues (hparse : Command.parse statement = .ok c) {a b : String}
    (harguments : c.arguments = [a, b]) {operator : Operator}
    (hk : c.keyword.operator? = some operator) {left right : Value} (ha : s.resolve a = .ok left)
    (hb : s.resolve b = .ok right) (hleft : left.IsNumber) (hright : right.IsNumber) {f : Fault}
    (h : operator.applyValues left right = .error f) :
    Surfaces statement s (.operation c.keyword f) := by
  obtain ⟨l, hl, hl_text, hl_numeral, hl_plain⟩ := hleft.exists_operand
  obtain ⟨r, hr, hr_text, hr_numeral, hr_plain⟩ := hright.exists_operand
  have hl_coerce : (Operand.Source.value left).coerce = .ok l := hl
  have hr_coerce : (Operand.Source.value right).coerce = .ok r := hr
  rw [Operator.applyValues, Operator.applySources_of_coerce hl_coerce hr_coerce] at h
  have hentry := Operator.tabled_apply operator r hl_coerce
  generalize operator.apply l r = outcome at h hentry
  cases hentry with
  | refused hrefuses => exact absurd hrefuses (Operator.not_refuses hk hl_text hr_text)
  | divisionByZero _ hoperator hzero =>
    cases h
    subst hoperator
    obtain rfl : right = .integer 0 := hr_plain 0 (Operand.eq_plain_zero hr_text hzero)
    exact .divisionByZero hparse (Keyword.eq_divide_of_operator? hk) harguments ha hb
  | @integers i j hoperator hi hj =>
    obtain rfl : left = .integer i := hl_plain i hi
    obtain rfl : right = .integer j := hr_plain j hj
    obtain ⟨n, hresult, rfl, hlarge⟩ := Operator.exists_exactResult?_of_error hk hoperator h
    exact .overflow hparse hk harguments ha hb hresult hlarge
  | range hresult hnumeral _ hrange =>
    cases h
    refine .range hparse hk harguments ha hb ?_ hl hr hresult hrange
    exact hnumeral.imp (fun ⟨m, hm⟩ => ⟨m, hl_numeral m hm⟩) fun ⟨m, hm⟩ => ⟨m, hr_numeral m hm⟩
  | quotient | concatenation | numeral => cases h

/-! ### Every error surfaces -/

theorem surfaces_of_parse (h : Command.parse statement = .error e) : Surfaces statement s e := by
  rw [Command.parse] at h
  split at h
  next words hwords =>
    rw [Command.ofWords.eq_def] at h
    split at h
    next word argument arguments =>
      rw [Keyword.parse] at h
      split at h
      next => cases h
      next hword =>
        cases h
        exact .unknownKeyword hwords hword
    next hshort =>
      cases h
      refine .tooShort hwords ?_
      rcases words with _ | ⟨word, _ | ⟨argument, arguments⟩⟩
      · exact Nat.zero_lt_two
      · exact Nat.one_lt_two
      · exact absurd rfl (hshort word argument arguments)
  next hwords =>
    cases h
    exact .severalStatements hwords

theorem surfaces_of_resolve (hparse : Command.parse statement = .ok c) {token : String}
    (htoken : token ∈ c.arguments) (h : s.resolve token = .error e) : Surfaces statement s e := by
  rcases Store.resolve_eq_error h with ⟨hdigits, hlarge, rfl⟩ | ⟨hnumeral, hdigits, hfind, rfl⟩
  · exact .literalTooLarge hparse htoken hdigits hlarge
  · exact .unresolved hparse htoken hnumeral hdigits hfind

theorem surfaces_of_make (hparse : Command.parse statement = .ok c) (hkeyword : c.keyword = .set)
    {name token : String} (harguments : c.arguments = [name, token]) {value : Value}
    (hvalue : value.IsNumber) (h : Variable.make name value = .error e) :
    Surfaces statement s e := by
  rw [Variable.make] at h
  split at h
  next hname =>
    cases h
    exact .invalidName hparse hkeyword harguments (by simpa using hname)
  next => cases hvalue <;> cases h

theorem surfaces_of_converted (hparse : Command.parse statement = .ok c)
    (hkeyword : c.keyword = .convert) {token : String} (harguments : c.arguments = [token])
    {value : Value} (hvalue : s.resolve token = .ok value) (hnumber : value.IsNumber) {f : Fault}
    (h : Command.converted value = .error f) : Surfaces statement s (.numeral f) := by
  cases hnumber with
  | numeral n => cases h
  | integer i =>
    obtain ⟨rfl, hrange⟩ := Numeral.ofInt_eq_error_iff.mp (Outcome.map_eq_error_iff.mp h)
    exact .noNumeral hparse hkeyword harguments hvalue hrange

/-- In a valid store, a command that fails has an error that surfaces. -/
theorem Command.Fails.surfaces (hs : s.Valid) (hparse : Command.parse statement = .ok c)
    (h : c.Fails s e) : Surfaces statement s e := by
  cases h with
  | counted hcount => exact .wrongCount hparse hcount
  | resolved htoken h => exact surfaces_of_resolve hparse htoken h
  | bound hkeyword harguments hvalue h =>
    exact surfaces_of_make hparse hkeyword harguments (hs.isNumber_of_resolve hvalue) h
  | applied hoperator harguments ha hb h =>
    exact surfaces_of_applyValues hparse harguments hoperator ha hb (hs.isNumber_of_resolve ha)
      (hs.isNumber_of_resolve hb) h
  | converted hkeyword harguments hvalue h =>
    exact surfaces_of_converted hparse hkeyword harguments hvalue (hs.isNumber_of_resolve hvalue) h

/-- A statement fails because it is no command, or because its command fails. -/
theorem parse_or_fails (h : (executeStatement statement s).outcome = .error e) :
    Command.parse statement = .error e ∨ ∃ c, Command.parse statement = .ok c ∧ c.Fails s e := by
  rw [executeStatement_eq] at h
  split at h
  next c hparse => exact .inr ⟨c, hparse, Command.fails_of_handle h⟩
  next hparse =>
    cases h
    exact .inl hparse

theorem surfaces_of_executeStatement (hs : s.Valid)
    (h : (executeStatement statement s).outcome = .error e) : Surfaces statement s e := by
  rcases parse_or_fails h with hparse | ⟨c, hparse, hfails⟩
  · exact surfaces_of_parse hparse
  · exact hfails.surfaces hs hparse

/-- A statement that is taken for several has a separator in it. -/
theorem separator_mem_of_severalStatements
    (h : (executeStatement statement s).outcome = .error (.malformed .severalStatements)) :
    ';' ∈ statement.toList := by
  by_contra hmem
  obtain ⟨words, hwords⟩ := exists_words?_of_not_mem hmem
  rcases parse_or_fails h with hparse | ⟨c, -, hfails⟩
  · have hsurfaces : Surfaces statement s _ := surfaces_of_parse hparse
    cases hsurfaces with
    | severalStatements hnone => cases hwords.symm.trans hnone
  · cases hfails.eq_wrongCount

end

/-- A line notes no failure that one of its statements is several. -/
theorem Run.failures_ne_severalStatements {line : String} {s : Store} {f : Failure}
    (h : f ∈ (ofLine line s).execution.failures) : f.error ≠ .malformed .severalStatements := by
  rw [failures_ofLine, List.mem_filterMap] at h
  obtain ⟨m, hm, hf⟩ := h
  obtain ⟨-, houtcome⟩ := Moment.failure?_eq_some_iff.mp hf
  have hstatement := isStatement_of_mem (Store.statement_mem_of_mem_moments hm)
  intro herror
  rw [herror] at houtcome
  exact hstatement.not_mem (separator_mem_of_severalStatements houtcome)

/-- **The errors of statements.** After any calls of an interpreter, a statement that fails has one
of the errors that `Surfaces` lists, under the conditions given there: an overflow only of two
integers whose exact result does not fit, a number out of range only where it is the exact result
with a numeral or an integer that is converted, and a division by zero only if the divisor is the
integer zero. The fault that it holds, if any, is one of these three, no mismatch and no text that
is no numeral. Tokens stand for numerals and integers only, and one that was asked for being a
numeral is read. Carried out in its own category, no command lacks an operator. And a statement of
a line is never taken for several. -/
theorem error_surface :
    (∀ (calls : List Call) (statement : String) (e : StatementError),
      (executeStatement statement (.after calls)).outcome = .error e →
        Surfaces statement (.after calls) e ∧
        ∀ f, e.fault? = some f → (∃ n, f = .range n) ∨ f = .overflow ∨ f = .divisionByZero) ∧
    (∀ (calls : List Call) (token : String) (value : Value),
      (Store.after calls).resolve token = .ok value → value.IsNumber) ∧
    (∀ (s : Store) (token : String), s.resolve token = s.resolveChecked token) ∧
    (∀ (c : Command) (s : Store) (k : Keyword),
      (c.handle c.category s).outcome ≠ .error (.malformed (.notArithmetic k))) ∧
    (∀ (line : String) (s : Store) (f : Failure),
      f ∈ (Run.ofLine line s).execution.failures → f.error ≠ .malformed .severalStatements) := by
  refine ⟨fun calls statement e h => ?_,
    fun calls token value h => (Store.valid_after calls).isNumber_of_resolve h,
    Store.resolve_eq_resolveChecked, fun c s k h => ?_,
    fun line s f h => Run.failures_ne_severalStatements h⟩
  · have hsurfaces := surfaces_of_executeStatement (Store.valid_after calls) h
    exact ⟨hsurfaces, fun f hf => hsurfaces.fault hf⟩
  · cases (Command.fails_of_handle h).eq_wrongCount

/-- A numeral is divided by a variable that is zero. -/
theorem error_surface_divide :
    (executeStatement "divide X a" (.after [.execute "set a 0"])).outcome =
        .error (.operation .divide .divisionByZero) ∧
      Surfaces "divide X a" (.after [.execute "set a 0"])
        (.operation .divide .divisionByZero) := by
  have h : (executeStatement "divide X a" (.after [.execute "set a 0"])).outcome =
      .error (.operation .divide .divisionByZero) := by cbv
  exact ⟨h, (error_surface.1 _ _ _ h).1⟩

end Roman
