import Roman.Conversion
import Roman.Outcome
import Roman.Proofs.Scanning

/-!
# The canonical form is the only one

The symbols of canonical forms fall into four groups, one for each place, and the
groups of the hundreds, the tens and the units are alike but for the unit. So a
number is written place by place: each group writes one digit of the number
(`Numeral.spelling_eq`). The digits of a place are exactly what its group writes
(`Place.Digit.exists_eq`, `Place.digit_write`), so a well-formed spelling is the
canonical one of its value (`Spelling.WellFormed.eq_spelling`).

With the scanner being exact and the decoder right on well-formed spellings, the text
of a numeral and the number of a text determine each other
(`toNumeral_iff_fromNumeral`).
-/

namespace Roman

open Outcome

/-! ### Writing place by place -/

namespace Numeral

/-- What is left of a number when the given symbols have been written. -/
def remainder (ts : List (Nat × Spelling)) (n : Nat) : Nat := ts.foldl (fun n t => n % t.1) n

/-- Symbols that stand for `u` times as much. -/
def scale (u : Nat) (ts : List (Nat × Spelling)) : List (Nat × Spelling) :=
  ts.map fun t => (u * t.1, t.2)

theorem write_append (ts us : List (Nat × Spelling)) :
    ∀ n, write (ts ++ us) n = write ts n ++ write us (remainder ts n) := by
  induction ts with
  | nil => exact fun _ => rfl
  | cons t ts ih =>
    intro n
    rw [List.cons_append, write, write, ih, List.append_assoc]
    rfl

/-- Symbols that stand for `u` times as much write a number as the symbols themselves
write the number of its units. -/
theorem write_scale (u : Nat) (ts : List (Nat × Spelling)) :
    ∀ n, write (scale u ts) n = write ts (n / u) := by
  induction ts with
  | nil => exact fun _ => rfl
  | cons t ts ih =>
    intro n
    have hrest : write (scale u ts) (n % (u * t.1)) = write ts (n / u % t.1) := by
      rw [ih, Nat.mod_mul_right_div_self]
    rw [write, ← hrest, Nat.div_div_eq_div_mul]
    rfl

end Numeral

namespace Place

/-- The symbols of a place with the numbers of units that they stand for. -/
def symbols : Place → List (Nat × Spelling)
  | thousands => [(1, [.M])]
  | hundreds => [(9, [.C, .M]), (5, [.D]), (4, [.C, .D]), (1, [.C])]
  | tens => [(9, [.X, .C]), (5, [.L]), (4, [.X, .L]), (1, [.X])]
  | units => [(9, [.I, .X]), (5, [.V]), (4, [.I, .V]), (1, [.I])]

/-- The digit of a place with `k` units. -/
def write (p : Place) (k : Nat) : Spelling := Numeral.write p.symbols k

/-- How many digits a place has, zero included. -/
def digitCount : Place → Nat
  | thousands => 4
  | _ => 10

/-- What the symbols of a place leave is less than a unit. -/
theorem remainder_symbols (p : Place) (n : Nat) :
    Numeral.remainder (Numeral.scale p.unit p.symbols) n = n % p.unit := by
  cases p <;>
    simp only [Numeral.remainder, Numeral.scale, symbols, unit, List.map, List.foldl] <;> omega

theorem write_ones {p : Place} {k : Nat} (hk : k ≤ 3) : p.write k = List.replicate k p.one := by
  cases p <;> (revert k; decide)

theorem write_fives {p : Place} {five : Letter} {k : Nat} (h : p.five? = some five) (hk : k ≤ 3) :
    p.write (k + 5) = five :: List.replicate k p.one := by
  cases p <;> cases h <;> (revert k; decide)

theorem write_four {p : Place} {five : Letter} (h : p.five? = some five) :
    p.write 4 = [p.one, five] := by
  cases p <;> cases h <;> decide

theorem write_nine {p : Place} {ten : Letter} (h : p.ten? = some ten) :
    p.write 9 = [p.one, ten] := by
  cases p <;> cases h <;> decide

theorem value_write {p : Place} {k : Nat} (hk : k < p.digitCount) :
    Spelling.value (p.write k) = k * p.unit := by
  cases p <;> (revert k; decide)

/-- A place with more than four digits has letters for five and ten. -/
theorem exists_five_ten {p : Place} {k : Nat} (hk : k < p.digitCount) (h : 3 < k) :
    (∃ five, p.five? = some five) ∧ ∃ ten, p.ten? = some ten := by
  cases p with
  | thousands => exact absurd hk (Nat.not_lt.mpr h)
  | hundreds => exact ⟨⟨_, rfl⟩, ⟨_, rfl⟩⟩
  | tens => exact ⟨⟨_, rfl⟩, ⟨_, rfl⟩⟩
  | units => exact ⟨⟨_, rfl⟩, ⟨_, rfl⟩⟩

/-- What a place writes is one of its digits. -/
theorem digit_write {p : Place} {k : Nat} (hk : k < p.digitCount) : p.Digit (p.write k) := by
  by_cases h3 : k ≤ 3
  · rw [write_ones h3]
    exact .ones h3
  obtain ⟨⟨five, hfive⟩, ⟨ten, hten⟩⟩ := exists_five_ten hk (by omega)
  have hten_lt : k < 10 := Nat.lt_of_lt_of_le hk (by cases p <;> decide)
  by_cases h4 : k = 4
  · rw [h4, write_four hfive]
    exact .four hfive
  by_cases h9 : k = 9
  · rw [h9, write_nine hten]
    exact .nine hten
  · obtain ⟨j, rfl⟩ : ∃ j, k = j + 5 := ⟨k - 5, by omega⟩
    rw [write_fives hfive (by omega)]
    exact .fives hfive (by omega)

/-- Every digit of a place is written by it. -/
theorem Digit.exists_eq {p : Place} {d : Spelling} (h : p.Digit d) :
    ∃ k < p.digitCount, d = p.write k := by
  cases h with
  | @ones k hk =>
    have hlt : k < p.digitCount := Nat.lt_of_lt_of_le (Nat.lt_succ_of_le hk) (by cases p <;> decide)
    exact ⟨k, hlt, (write_ones hk).symm⟩
  | @fives five k h hk =>
    have hlt : k + 5 < p.digitCount := by cases p <;> cases h <;> simp only [digitCount] <;> omega
    exact ⟨k + 5, hlt, (write_fives h hk).symm⟩
  | four h => exact ⟨4, by cases p <;> cases h <;> decide, (write_four h).symm⟩
  | nine h => exact ⟨9, by cases p <;> cases h <;> decide, (write_nine h).symm⟩

end Place

/-! ### Canonical spellings -/

/-- The symbols of canonical forms are those of the places, from the thousands to the
units. -/
theorem Numeral.symbols_eq :
    symbols = scale 1000 Place.thousands.symbols ++ (scale 100 Place.hundreds.symbols ++
      (scale 10 Place.tens.symbols ++ scale 1 Place.units.symbols)) := rfl

/-- A numeral is written digit by digit. -/
theorem Numeral.spelling_eq (n : Numeral) :
    n.spelling = Place.thousands.write (n.decimal / 1000) ++
      (Place.hundreds.write (n.decimal % 1000 / 100) ++
        (Place.tens.write (n.decimal % 100 / 10) ++ Place.units.write (n.decimal % 10))) := by
  have h₁ : remainder (scale 1000 Place.thousands.symbols) n.decimal = n.decimal % 1000 :=
    Place.thousands.remainder_symbols n.decimal
  have h₂ : remainder (scale 100 Place.hundreds.symbols) (n.decimal % 1000) = n.decimal % 100 := by
    rw [show (100 : Nat) = Place.hundreds.unit from rfl, Place.remainder_symbols]
    exact Nat.mod_mod_of_dvd _ (by decide)
  have h₃ : remainder (scale 10 Place.tens.symbols) (n.decimal % 100) = n.decimal % 10 := by
    rw [show (10 : Nat) = Place.tens.unit from rfl, Place.remainder_symbols]
    exact Nat.mod_mod_of_dvd _ (by decide)
  rw [spelling, symbols_eq, write_append, write_append, write_append, h₁, h₂, h₃,
    write_scale, write_scale, write_scale, write_scale, Nat.div_one]
  rfl

namespace Spelling

/-- The digits of a number, written place by place, make a spelling of that number
whose parts are digits. -/
theorem digits_spelling (n : Numeral) :
    ∃ a b c d, Place.thousands.Digit a ∧ Place.hundreds.Digit b ∧
      Place.tens.Digit c ∧ Place.units.Digit d ∧ n.spelling = a ++ (b ++ (c ++ d)) ∧
      n.spelling.value = n.decimal := by
  have hle := n.le_max
  have hi : n.decimal / 1000 < Place.thousands.digitCount := by simp only [Place.digitCount]; omega
  have hj : n.decimal % 1000 / 100 < Place.hundreds.digitCount := by
    simp only [Place.digitCount]
    omega
  have hk : n.decimal % 100 / 10 < Place.tens.digitCount := by simp only [Place.digitCount]; omega
  have hl : n.decimal % 10 < Place.units.digitCount := by simp only [Place.digitCount]; omega
  have di := Place.digit_write hi
  have dj := Place.digit_write hj
  have dk := Place.digit_write hk
  have dl := Place.digit_write hl
  refine ⟨_, _, _, _, di, dj, dk, dl, n.spelling_eq, ?_⟩
  rw [n.spelling_eq, value_digits di dj dk dl, Place.value_write hi, Place.value_write hj,
    Place.value_write hk, Place.value_write hl]
  simp only [Place.unit]
  omega

theorem value_spelling (n : Numeral) : n.spelling.value = n.decimal := by
  obtain ⟨a, b, c, d, -, -, -, -, -, hvalue⟩ := digits_spelling n
  exact hvalue

/-- The spelling of a numeral is well formed. -/
theorem wellFormed_spelling (n : Numeral) : n.spelling.WellFormed := by
  obtain ⟨a, b, c, d, ha, hb, hc, hd, hs, hvalue⟩ := digits_spelling n
  have hpos := n.one_le
  refine ⟨fun hnil => ?_, a, b, c, d, ha, hb, hc, hd, hs⟩
  rw [hnil, value_nil] at hvalue
  omega

/-- A well-formed spelling is the canonical one of its value. -/
theorem WellFormed.eq_spelling {s : Spelling} (h : s.WellFormed) {n : Numeral}
    (hn : s.value = n.decimal) :
    s = n.spelling := by
  obtain ⟨-, a, b, c, d, ha, hb, hc, hd, rfl⟩ := h
  rw [value_digits ha hb hc hd] at hn
  obtain ⟨i, hi, rfl⟩ := ha.exists_eq
  obtain ⟨j, hj, rfl⟩ := hb.exists_eq
  obtain ⟨k, hk, rfl⟩ := hc.exists_eq
  obtain ⟨l, hl, rfl⟩ := hd.exists_eq
  rw [Place.value_write hi, Place.value_write hj, Place.value_write hk, Place.value_write hl] at hn
  simp only [Place.digitCount, Place.unit] at hi hj hk hl hn
  have ei : n.decimal / 1000 = i := by omega
  have ej : n.decimal % 1000 / 100 = j := by omega
  have ek : n.decimal % 100 / 10 = k := by omega
  have el : n.decimal % 10 = l := by omega
  rw [n.spelling_eq, ei, ej, ek, el]

end Spelling

/-! ### Texts and numerals -/

namespace Numeral

/-- A well-formed spelling is decoded to a numeral if and only if it is the spelling of
that numeral. -/
theorem ofSpelling_eq_iff {s : { s : Spelling // s.WellFormed }} {n : Numeral} :
    ofSpelling s = n ↔ s.1 = n.spelling := by
  have hdecode : (ofSpelling s).decimal = s.1.value := s.2.decode_eq_value
  constructor
  · rintro rfl
    exact s.2.eq_spelling hdecode.symm
  · intro hs
    exact decimal_inj (by rw [hdecode, hs, Spelling.value_spelling])

/-- A text is read as a numeral if and only if it is the canonical form of that
numeral. -/
theorem parse_eq_ok_iff {text : String} {n : Numeral} :
    parse text = .ok n ↔ text = n.canonical := by
  rw [parse, map_eq_ok_iff]
  constructor
  · rintro ⟨s, hs, hn⟩
    rw [Spelling.ofText_eq_ok_iff.mp hs, ofSpelling_eq_iff.mp hn, canonical]
  · intro h
    exact ⟨⟨n.spelling, Spelling.wellFormed_spelling n⟩, Spelling.ofText_eq_ok_iff.mpr h,
      ofSpelling_eq_iff.mpr rfl⟩

theorem ofText_eq_ok_iff {text : String} {n : Numeral} :
    ofText text = .ok n ↔ text = n.canonical := by
  rw [ofText, mapError_eq_ok_iff, parse_eq_ok_iff]

end Numeral

theorem toNumeral_eq_ok_iff {n : Int} {text : String} :
    toNumeral n = .ok text ↔ ∃ m : Numeral, (m.decimal : Int) = n ∧ m.canonical = text := by
  simp only [toNumeral, mapError_eq_ok_iff, map_eq_ok_iff, Numeral.ofInt_eq_ok_iff]

theorem fromNumeral_eq_ok_iff {n : Int} {text : String} :
    fromNumeral text = .ok n ↔ ∃ m : Numeral, text = m.canonical ∧ (m.decimal : Int) = n := by
  simp only [fromNumeral, mapError_eq_ok_iff, map_eq_ok_iff, Numeral.ofText_eq_ok_iff]

/-- **Numerals and their texts determine each other.** An integer is written as a text
if and only if the text is read as that integer; the integers that are written are
those from 1 to 3999, and the texts that are read are what they are written as. What
is written is read back, and what is read is written the same: no numeral has a second
text. -/
theorem toNumeral_iff_fromNumeral :
    (∀ (n : Int) (text : String), toNumeral n = .ok text ↔ fromNumeral text = .ok n) ∧
    (∀ n : Int, (∃ m, Numeral.ofInt n = .ok m) ↔ 1 ≤ n ∧ n ≤ 3999) ∧
    (∀ text : String, (∃ m, Numeral.ofText text = .ok m) ↔
      ∃ n : Int, 1 ≤ n ∧ n ≤ 3999 ∧ ∃ m, Numeral.ofInt n = .ok m ∧ m.canonical = text) ∧
    (∀ m : Numeral, Numeral.ofText m.canonical = .ok m) ∧
    (∀ (text : String) (m : Numeral), Numeral.ofText text = .ok m ↔ m.canonical = text) := by
  have hrange : ∀ m : Numeral, 1 ≤ (m.decimal : Int) ∧ (m.decimal : Int) ≤ 3999 := fun m =>
    ⟨Int.ofNat_le.mpr m.one_le, Int.ofNat_le.mpr m.le_max⟩
  refine ⟨fun n text => ?_, fun n => ?_, fun text => ?_, fun m => ?_, fun text m => ?_⟩
  · rw [toNumeral_eq_ok_iff, fromNumeral_eq_ok_iff]
    exact exists_congr fun m => by rw [and_comm, eq_comm (a := text)]
  · simp only [Numeral.ofInt_eq_ok_iff]
    constructor
    · rintro ⟨m, rfl⟩
      exact hrange m
    · rintro ⟨h₁, h₂⟩
      exact ⟨⟨n.toNat, by omega, by omega⟩, Int.toNat_of_nonneg (by omega)⟩
  · simp only [Numeral.ofText_eq_ok_iff, Numeral.ofInt_eq_ok_iff]
    constructor
    · rintro ⟨m, rfl⟩
      exact ⟨m.decimal, (hrange m).1, (hrange m).2, m, rfl, rfl⟩
    · rintro ⟨n, -, -, m, -, rfl⟩
      exact ⟨m, rfl⟩
  · exact Numeral.ofText_eq_ok_iff.mpr rfl
  · rw [Numeral.ofText_eq_ok_iff, eq_comm]

example : toNumeral 1994 = .ok "MCMXCIV" := by rfl

end Roman
