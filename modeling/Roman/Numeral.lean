import Roman.Decoding

/-!
# Numerals

A numeral is a number from 1 to 3999. It is made from such a number
(`Numeral.ofInt?`) or read from a text (`Numeral.parse`), and it is written in one
way, its canonical form (`Numeral.canonical`). Numerals are ordered as their
numbers are.

Reading needs no check of the range: what a text that the grammar accepts is decoded
to is a number from 1 to 3999.
-/

namespace Roman

/-- A number that Roman numerals can write. -/
structure Numeral where
  /-- The number itself. -/
  decimal : Nat
  one_le : 1 ≤ decimal
  le_max : decimal ≤ 3999
  deriving DecidableEq

namespace Numeral

theorem decimal_inj {a b : Numeral} (h : a.decimal = b.decimal) : a = b := by
  cases a
  cases b
  cases h
  rfl

/-- The least number with a numeral. -/
def lowest : Nat := 1

/-- The greatest number with a numeral. -/
def highest : Nat := 3999

/-- The numeral of an integer, if it has one. -/
def ofInt? (n : Int) : Option Numeral :=
  if h : lowest ≤ n ∧ n ≤ highest then
    some ⟨n.toNat, by unfold lowest at h; omega, by unfold highest at h; omega⟩
  else none

/-- An integer has the numeral whose number it is, and no other. -/
theorem ofInt?_eq_some_iff {n : Int} {m : Numeral} : ofInt? n = some m ↔ (m.decimal : Int) = n := by
  constructor
  · intro h
    rw [ofInt?] at h
    split at h
    next hn =>
      cases h
      exact Int.toNat_of_nonneg (Int.le_trans (by decide) hn.1)
    next => cases h
  · rintro rfl
    have hrange : (lowest : Int) ≤ m.decimal ∧ (m.decimal : Int) ≤ highest :=
      ⟨Int.ofNat_le.mpr m.one_le, Int.ofNat_le.mpr m.le_max⟩
    rw [ofInt?, dif_pos hrange]
    exact congrArg some (decimal_inj rfl)

/-- The numeral that a well-formed spelling is decoded to. -/
def ofSpelling (s : { s : Spelling // s.WellFormed }) : Numeral :=
  ⟨s.1.decode, s.2.decode_eq_value ▸ s.2.value_pos, s.2.decode_eq_value ▸ s.2.value_le⟩

/-- The numeral that a text spells, or why it spells none. -/
def parse (text : String) : Except Rejection Numeral := (Spelling.ofText text).map ofSpelling

/-- Whether a text is a numeral. -/
def accepts (text : String) : Bool := (Spelling.ofText text).isOk

/-- What is no numeral spells none. -/
theorem exists_parse_eq_error {text : String} (h : accepts text = false) : ∃ r, parse text = .error r := by
  rw [accepts] at h
  rw [parse]
  cases hs : Spelling.ofText text with
  | ok s =>
    rw [hs] at h
    cases h
  | error r => exact ⟨r, rfl⟩

/-! ### The canonical form -/

/-- The symbols of canonical forms and their values, from the largest to the
smallest. -/
def symbols : List (Nat × Spelling) :=
  [(1000, [.M]), (900, [.C, .M]), (500, [.D]), (400, [.C, .D]), (100, [.C]), (90, [.X, .C]),
    (50, [.L]), (40, [.X, .L]), (10, [.X]), (9, [.I, .X]), (5, [.V]), (4, [.I, .V]), (1, [.I])]

/-- Writes a number with the given symbols, each as often as it fits into what is
left. -/
def write : List (Nat × Spelling) → Nat → Spelling
  | [], _ => []
  | (value, symbol) :: rest, n => (List.replicate (n / value) symbol).flatten ++ write rest (n % value)

/-- The canonical spelling of a numeral. -/
def spelling (n : Numeral) : Spelling := write symbols n.decimal

/-- The canonical form of a numeral. -/
def canonical (n : Numeral) : String := n.spelling.text

/-! ### Order -/

instance : LT Numeral := ⟨fun a b => a.decimal < b.decimal⟩

instance : LE Numeral := ⟨fun a b => a.decimal ≤ b.decimal⟩

instance (a b : Numeral) : Decidable (a < b) := inferInstanceAs (Decidable (a.decimal < b.decimal))

instance (a b : Numeral) : Decidable (a ≤ b) := inferInstanceAs (Decidable (a.decimal ≤ b.decimal))

instance : Ord Numeral := ⟨fun a b => compare a.decimal b.decimal⟩

instance : Max Numeral := maxOfLe

instance : Min Numeral := minOfLe

end Numeral

end Roman
