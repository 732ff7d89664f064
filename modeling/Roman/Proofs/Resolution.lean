import Roman.Proofs.ErrorSurface
import Roman.Proofs.FloorDivision
import Roman.Proofs.Substitution

/-!
# What a token stands for

There are three classes of tokens: spellings of numerals, digits, and all others, which are names.
No token is both a spelling and digits (`not_spells_and_denotes`). A spelling stands for its numeral
and digits for the number that they denote, whatever the store holds; what a name stands for is all
that depends on the store (`resolve_partition`).

Digits are read into 64 bits one after the other, by a multiplication with ten and an addition that
may both overflow (`readDigits?`). One of them does if and only if the whole number does not fit, as
what has been read never gets smaller (`readDigits?_eq`).
-/

namespace Roman

/-! ### Spellings -/

/-- A token spells a numeral: it is written with a well-formed spelling of that value. -/
def Spells (token : String) (n : Numeral) : Prop :=
  ∃ spelling : Spelling, spelling.WellFormed ∧ spelling.text = token ∧ spelling.value = n.decimal

theorem spells_iff {token : String} {n : Numeral} : Spells token n ↔ token = n.canonical := by
  constructor
  · rintro ⟨spelling, hformed, rfl, hvalue⟩
    rw [hformed.eq_spelling hvalue, Numeral.canonical]
  · rintro rfl
    exact ⟨n.spelling, Spelling.wellFormed_spelling n, rfl, Spelling.value_spelling n⟩

theorem accepts_iff_exists_spells {token : String} :
    Numeral.accepts token = true ↔ ∃ n, Spells token n := by
  simp only [spells_iff, ← Numeral.parse_eq_ok_iff]
  constructor
  · intro haccepts
    cases hparse : Numeral.parse token with
    | ok n => exact ⟨n, rfl⟩
    | error r =>
      rw [Numeral.not_accepts_of_parse hparse] at haccepts
      cases haccepts
  · rintro ⟨n, hparse⟩
    by_contra haccepts
    obtain ⟨r, hr⟩ := Numeral.exists_parse_eq_error (Bool.eq_false_iff.mpr haccepts)
    rw [hr] at hparse
    cases hparse

/-! ### Digits -/

/-- A token denotes a number: it is written with digits, of which the last one counts ones, the one
before it tens, and so on. -/
structure Denotes (token : String) (n : Nat) : Prop where
  ne_empty : token ≠ ""
  isDigit : ∀ c ∈ token.toList, '0' ≤ c ∧ c ≤ '9'
  value_eq : Nat.ofDigits 10 (token.toList.reverse.map fun c => c.toNat - '0'.toNat) = n

theorem ofDigits_reverse (cs : List Char) :
    Nat.ofDigits 10 (cs.reverse.map fun c => c.toNat - '0'.toNat) = Nat.ofDigitChars 10 cs 0 := by
  induction cs using List.reverseRecOn with
  | nil => rfl
  | append_singleton cs c ih =>
    rw [List.reverse_append, List.reverse_singleton, List.singleton_append, List.map_cons,
      Nat.ofDigits_cons, ih, Nat.ofDigitChars_append, Nat.ofDigitChars_cons, Nat.ofDigitChars_nil,
      Nat.add_comm]

theorem denotes_iff {token : String} {n : Nat} :
    Denotes token n ↔ isDigits token = true ∧ ofDigits token = n := by
  have hdigit (c : Char) : c.isDigit = true ↔ '0' ≤ c ∧ c ≤ '9' := by
    simp [Char.isDigit, Char.le_def]
  rw [isDigits_iff, ofDigits, ← ofDigits_reverse]
  simp only [hdigit]
  exact ⟨fun h => ⟨⟨h.ne_empty, h.isDigit⟩, h.value_eq⟩, fun h => ⟨h.1.1, h.1.2, h.2⟩⟩

theorem exists_denotes_iff {token : String} : (∃ n, Denotes token n) ↔ isDigits token = true := by
  simp only [denotes_iff, exists_and_left, exists_eq', and_true]

/-- No token is both: the letters of numerals are no digits. -/
theorem not_spells_and_denotes (token : String) :
    ¬ ((∃ n, Spells token n) ∧ ∃ n, Denotes token n) := by
  rintro ⟨⟨n, hn⟩, hdenotes⟩
  have hdigits := exists_denotes_iff.mp hdenotes
  rw [spells_iff.mp hn, n.isDigits_canonical] at hdigits
  cases hdigits

/-! ### Digits read into a word -/

/-- Reads digits onto a word, from left to right; reading stops where a product or a sum does not
fit. -/
def readDigits? (w : Int64) : List Char → Option Int64
  | [] => some w
  | c :: cs => do
    let tens ← Integer.word? (w.toInt * 10)
    let next ← Integer.word? (tens.toInt + (c.toNat - '0'.toNat : Nat))
    readDigits? next cs

/-- A number from which one goes on to a larger one need not be checked. -/
theorem Integer.word?_bind {m n : Int} {f : Int64 → Option Int64} (hm : 0 ≤ m) (hle : m ≤ n)
    (hf : ∀ w : Int64, w.toInt = m → f w = word? n) : (word? m >>= f) = word? n := by
  cases hword : word? m with
  | some w => exact hf w (word?_eq_some_iff.mp hword)
  | none =>
    cases hlarge : word? n with
    | none => rfl
    | some w =>
      -- then the smaller number fits as well
      have hw := word?_eq_some_iff.mp hlarge
      obtain ⟨-, hhigh⟩ := bounds_toInt w
      have hfits : (Int64.ofInt m).toInt = m := Int64.toInt_ofInt_of_le (by omega) (by omega)
      rw [word?_eq_some_iff.mpr hfits] at hword
      cases hword

theorem le_ofDigitChars (cs : List Char) (n : Nat) : n ≤ Nat.ofDigitChars 10 cs n := by
  induction cs generalizing n with
  | nil => rw [Nat.ofDigitChars_nil]
  | cons c cs ih =>
    rw [Nat.ofDigitChars_cons]
    exact Nat.le_trans (by omega) (ih _)

/-- Reading digits stops if and only if the number that they make does not fit. -/
theorem readDigits?_eq {w : Int64} {n : Nat} (hw : w.toInt = n) (cs : List Char) :
    readDigits? w cs = Integer.word? (Nat.ofDigitChars 10 cs n) := by
  induction cs generalizing w n with
  | nil => rw [readDigits?, Nat.ofDigitChars_nil, ← hw, Integer.word?_toInt]
  | cons c cs ih =>
    have hle := le_ofDigitChars cs (10 * n + (c.toNat - '0'.toNat))
    rw [readDigits?, Nat.ofDigitChars_cons, hw]
    refine Integer.word?_bind (by omega) (by omega) fun tens htens => ?_
    refine Integer.word?_bind (by omega) (by omega) fun next hnext => ih ?_
    rw [hnext, htens]
    push_cast
    rw [Int.mul_comm]

namespace Store

/-- A literal is refused if and only if reading it stops. -/
theorem integerOfLiteral_eq_readDigits? (token : String) :
    integerOfLiteral token (ofDigits token) =
      match readDigits? 0 token.toList with
      | some i => .ok (.integer i)
      | none => .error (.literalTooLarge token) := by
  rw [readDigits?_eq (n := 0) rfl, ← ofDigits, integerOfLiteral]
  split
  next hmax => rw [Integer.word?_eq_some_iff.mpr (toInt_ofNat hmax)]
  next hmax =>
    cases hword : Integer.word? (ofDigits token) with
    | none => rfl
    | some w =>
      rw [← Integer.word?_eq_some_iff.mp hword] at hmax
      exact absurd (Integer.fits_toInt w).2 hmax

/-- The value that a token stands for, found as a machine finds it: a numeral that was accepted is
read, which might fail, and digits are read into a word, which might overflow. -/
def resolveInWords (s : Store) (token : String) : Except StatementError Value :=
  if Numeral.accepts token then ((Numeral.ofText token).mapError .numeral).map .numeral
  else if isDigits token then
    match readDigits? 0 token.toList with
    | some i => .ok (.integer i)
    | none => .error (.literalTooLarge token)
  else (s.get token).map Variable.value

theorem resolve_eq_resolveInWords (s : Store) (token : String) :
    s.resolve token = s.resolveInWords token := by
  rw [resolve_eq_resolveChecked, resolveChecked, resolveInWords, integerOfLiteral_eq_readDigits?]

end Store

/-! ### What a token stands for -/

/-- What a token stands for in a store. -/
inductive StandsFor (s : Store) (token : String) : Except StatementError Value → Prop where
  /-- A spelling stands for its numeral. -/
  | numeral {n : Numeral} (h : Spells token n) : StandsFor s token (.ok (.numeral n))
  /-- Digits stand for the integer that they denote. -/
  | integer {n : Nat} {i : Int64} (h : Denotes token n) (hlt : n < 2 ^ 63) (hi : i.toInt = n) :
      StandsFor s token (.ok (.integer i))
  /-- Digits that denote too large a number stand for nothing. -/
  | tooLarge {n : Nat} (h : Denotes token n) (hle : 2 ^ 63 ≤ n) :
      StandsFor s token (.error (.literalTooLarge token))
  /-- A name stands for the value of the variable that has it. -/
  | stored {v : Variable} (hspells : ¬ ∃ n, Spells token n) (hdenotes : ¬ ∃ n, Denotes token n)
      (hv : s.find? token = some v) : StandsFor s token (.ok v.value)
  /-- A name that no variable has stands for nothing. -/
  | unresolved (hspells : ¬ ∃ n, Spells token n) (hdenotes : ¬ ∃ n, Denotes token n)
      (hv : s.find? token = none) : StandsFor s token (.error (.unresolved token))

namespace Store

variable (s : Store) {token : String}

theorem resolve_of_spells {n : Numeral} (h : Spells token n) : s.resolve token = .ok (.numeral n) := by
  rw [resolve, Numeral.parse_eq_ok_iff.mpr (spells_iff.mp h)]

/-- A token that spells no numeral is digits or a name. -/
theorem resolve_of_not_spells (h : ¬ ∃ n, Spells token n) :
    s.resolve token =
      if isDigits token then integerOfLiteral token (ofDigits token)
      else (s.get token).map Variable.value := by
  rw [resolve_eq_resolveChecked, resolveChecked, if_neg (mt accepts_iff_exists_spells.mp h)]

theorem resolve_of_denotes {n : Nat} (h : Denotes token n) :
    s.resolve token = integerOfLiteral token n := by
  obtain ⟨hdigits, hn⟩ := denotes_iff.mp h
  rw [resolve_of_not_spells s fun hspells => not_spells_and_denotes token ⟨hspells, n, h⟩,
    if_pos hdigits, hn]

theorem resolve_of_name (hspells : ¬ ∃ n, Spells token n) (hdenotes : ¬ ∃ n, Denotes token n) :
    s.resolve token = (s.get token).map Variable.value := by
  rw [resolve_of_not_spells s hspells, if_neg (mt exists_denotes_iff.mpr hdenotes)]

end Store

theorem StandsFor.resolve_eq {s : Store} {token : String} {outcome : Except StatementError Value}
    (h : StandsFor s token outcome) : s.resolve token = outcome := by
  cases h with
  | numeral h => exact s.resolve_of_spells h
  | @integer n i h hlt hi =>
    have hmax := le_maxValue_iff.mpr hlt
    have hword : i = Int64.ofNat n := Int64.toInt_inj.mp (hi.trans (toInt_ofNat hmax).symm)
    rw [s.resolve_of_denotes h, Store.integerOfLiteral_eq_ok_iff]
    exact ⟨hmax, congrArg Value.integer hword⟩
  | tooLarge h hle =>
    rw [s.resolve_of_denotes h, Store.integerOfLiteral, if_neg]
    exact mt le_maxValue_iff.mp (Nat.not_lt.mpr hle)
  | stored hspells hdenotes hv => rw [s.resolve_of_name hspells hdenotes, Store.get, hv]; rfl
  | unresolved hspells hdenotes hv => rw [s.resolve_of_name hspells hdenotes, Store.get, hv]; rfl

/-- Every token stands for something or for nothing, in one of the five ways. -/
theorem standsFor_resolve (s : Store) (token : String) : StandsFor s token (s.resolve token) := by
  by_cases hspells : ∃ n, Spells token n
  · obtain ⟨n, hn⟩ := hspells
    rw [s.resolve_of_spells hn]
    exact .numeral hn
  by_cases hdenotes : ∃ n, Denotes token n
  · obtain ⟨n, hn⟩ := hdenotes
    rw [s.resolve_of_denotes hn, Store.integerOfLiteral]
    split
    next hmax => exact .integer hn (le_maxValue_iff.mp hmax) (toInt_ofNat hmax)
    next hmax => exact .tooLarge hn (Nat.not_lt.mp (mt le_maxValue_iff.mpr hmax))
  rw [s.resolve_of_name hspells hdenotes, Store.get]
  cases hv : s.find? token with
  | some v => exact .stored hspells hdenotes hv
  | none => exact .unresolved hspells hdenotes hv

/-- Whether a token stands for the same in all stores. -/
theorem resolve_congr_iff {token : String} :
    (∀ s t : Store, s.resolve token = t.resolve token) ↔
      (∃ n, Spells token n) ∨ ∃ n, Denotes token n := by
  constructor
  · intro hsame
    by_contra h
    obtain ⟨hspells, hdenotes⟩ := not_or.mp h
    -- a name stands for nothing in the empty store, and for a value where a variable has it
    have hempty := hsame .empty (Store.empty.put token ⟨token, .integer 0, .integer⟩)
    rw [Store.resolve_of_name _ hspells hdenotes, Store.resolve_of_name _ hspells hdenotes,
      Store.get, Store.get, Store.find?_put, if_pos rfl] at hempty
    cases hempty
  · rintro (⟨n, hn⟩ | ⟨n, hn⟩) s t
    · rw [s.resolve_of_spells hn, t.resolve_of_spells hn]
    · rw [s.resolve_of_denotes hn, t.resolve_of_denotes hn]

/-- **What tokens stand for.** A token is accepted as a numeral if and only if it spells one, and
then it is not digits. In every store a token that spells a numeral stands for it; one that is
digits stands for the integer that it denotes, however many digits and zeros in front there are, or
it is refused as too large, if that integer does not fit into 64 bits; and any other stands for the
value of the variable of that name, or for nothing. That variable is the one of the first entry with
exactly that name, and there is none if the store does not have the name. The tokens of the first two
classes are those that stand for the same in all stores. And it is all the same if a numeral is read
by a step that might fail, and digits by steps that might overflow. -/
theorem resolve_partition :
    (∀ token : String, Numeral.accepts token = true ↔ ∃ n, Spells token n) ∧
    (∀ token : String, ¬ ((∃ n, Spells token n) ∧ ∃ n, Denotes token n)) ∧
    (∀ (s : Store) (token : String) (outcome : Except StatementError Value),
      s.resolve token = outcome ↔ StandsFor s token outcome) ∧
    (∀ (s : Store) (name : String) (v : Variable), s.find? name = some v ↔
      ∃ before after, s.entries = before ++ (name, v) :: after ∧ name ∉ before.map Prod.fst) ∧
    (∀ (s : Store) (name : String), s.find? name = none ↔ name ∉ s.names) ∧
    (∀ token : String, (∀ s t : Store, s.resolve token = t.resolve token) ↔
      (∃ n, Spells token n) ∨ ∃ n, Denotes token n) ∧
    (∀ (s : Store) (token : String), s.resolve token = s.resolveInWords token) := by
  refine ⟨fun token => accepts_iff_exists_spells, not_spells_and_denotes,
    fun s token outcome => ⟨?_, StandsFor.resolve_eq⟩, fun s name v => Store.find?_eq_some_iff,
    fun s name => Store.find?_eq_none_iff, fun token => resolve_congr_iff,
    Store.resolve_eq_resolveInWords⟩
  rintro rfl
  exact standsFor_resolve s token

/-- Zeros in front do not count, and the least number that does not fit is refused. -/
example :
    Store.empty.resolve "0009223372036854775807" = .ok (.integer 9223372036854775807) ∧
      Store.empty.resolve "9223372036854775808" = .error (.literalTooLarge "9223372036854775808") := by
  constructor <;> cbv

/-- With a sign in front digits are a name, and of these two names one has a variable. -/
example :
    let s := Store.after [.execute "set -5 7; set b X"]
    s.resolve "-5" = .ok (.integer 7) ∧ s.resolve "-6" = .error (.unresolved "-6") := by
  intro s
  have hs : s = .after [.execute "set -5 7; set b X"] := rfl
  constructor <;> (rw [hs]; cbv)

end Roman
