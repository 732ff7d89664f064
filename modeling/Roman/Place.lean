import Roman.Spelling

/-!
# Decimal places

A numeral is written place by place, from the thousands to the units. Each place
has a letter for one; all but the thousands have a letter for five and one for
ten.

`Place.Digit` is the grammar of the digits of a place. `Place.width` is the
program beside it: how many letters at the front of a spelling belong to the place.
What it takes is always a digit (`Place.digit_take_width`).
-/

namespace Roman

/-- The decimal places of a numeral. -/
inductive Place where
  /-- The thousands, written with `M` alone. -/
  | thousands
  /-- The hundreds, written with `C`, `D` and `M`. -/
  | hundreds
  /-- The tens, written with `X`, `L` and `C`. -/
  | tens
  /-- The units, written with `I`, `V` and `X`. -/
  | units
  deriving DecidableEq

namespace Place

/-- The places in the order in which they are written. -/
def all : List Place := [thousands, hundreds, tens, units]

/-- The name of a place. -/
def name : Place → String
  | thousands => "thousands"
  | hundreds => "hundreds"
  | tens => "tens"
  | units => "units"

/-- The number that one stands for in a place. -/
def unit : Place → Nat
  | thousands => 1000
  | hundreds => 100
  | tens => 10
  | units => 1

/-- The letter for one. -/
def one : Place → Letter
  | thousands => .M
  | hundreds => .C
  | tens => .X
  | units => .I

/-- The letter for five; the thousands have none. -/
def five? : Place → Option Letter
  | thousands => none
  | hundreds => some .D
  | tens => some .L
  | units => some .V

/-- The letter for ten; the thousands have none. -/
def ten? : Place → Option Letter
  | thousands => none
  | hundreds => some .M
  | tens => some .C
  | units => some .X

/-! ### The values of the letters of a place -/

theorem one_value (p : Place) : p.one.value = p.unit := by
  cases p <;> rfl

theorem five_value {p : Place} {five : Letter} (h : p.five? = some five) : five.value = 5 * p.unit := by
  cases p <;> cases h <;> rfl

theorem ten_value {p : Place} {ten : Letter} (h : p.ten? = some ten) : ten.value = 10 * p.unit := by
  cases p <;> cases h <;> rfl

theorem unit_pos (p : Place) : 0 < p.unit := by
  cases p <;> decide

/-! ### The digits of a place -/

/-- The digits of a place: up to three ones, a five with up to three ones, and one
before five or ten. Zero is written with no letter. -/
inductive Digit (p : Place) : Spelling → Prop where
  /-- Zero to three. -/
  | ones {k : Nat} (hk : k ≤ 3) : Digit p (List.replicate k p.one)
  /-- Five to eight. -/
  | fives {five : Letter} {k : Nat} (h : p.five? = some five) (hk : k ≤ 3) :
      Digit p (five :: List.replicate k p.one)
  /-- Four. -/
  | four {five : Letter} (h : p.five? = some five) : Digit p [p.one, five]
  /-- Nine. -/
  | nine {ten : Letter} (h : p.ten? = some ten) : Digit p [p.one, ten]

/-- A digit is worth at most nine of its place. -/
theorem Digit.value_le {p : Place} {s : Spelling} (h : p.Digit s) : Spelling.value s ≤ 9 * p.unit := by
  cases h with
  | @ones k hk => cases p <;> (revert k; decide)
  | @fives five k h hk => cases p <;> cases h <;> (revert k; decide)
  | four h => cases p <;> cases h <;> decide
  | nine h => cases p <;> cases h <;> decide

/-- A digit of the thousands is worth at most three thousand. -/
theorem Digit.value_le_of_thousands {s : Spelling} (h : thousands.Digit s) : Spelling.value s ≤ 3000 := by
  cases h with
  | @ones k hk => revert k; decide
  | fives h => cases h
  | four h => cases h
  | nine h => cases h

/-- No letter of a digit is worth less than one of its place. -/
theorem Digit.unit_le {p : Place} {s : Spelling} (h : p.Digit s) : ∀ a ∈ s, p.unit ≤ a.value := by
  cases h with
  | ones hk =>
    intro a ha
    rw [List.eq_of_mem_replicate ha]
    cases p <;> decide
  | fives h hk =>
    intro a ha
    rcases List.mem_cons.mp ha with rfl | ha
    · cases p <;> cases h <;> decide
    · rw [List.eq_of_mem_replicate ha]
      cases p <;> decide
  | four h => cases p <;> cases h <;> decide
  | nine h => cases p <;> cases h <;> decide

/-- No letter of a digit is worth more than ten of its place. -/
theorem Digit.le_ten {p : Place} {s : Spelling} (h : p.Digit s) : ∀ a ∈ s, a.value ≤ 10 * p.unit := by
  cases h with
  | ones hk =>
    intro a ha
    rw [List.eq_of_mem_replicate ha]
    cases p <;> decide
  | fives h hk =>
    intro a ha
    rcases List.mem_cons.mp ha with rfl | ha
    · cases p <;> cases h <;> decide
    · rw [List.eq_of_mem_replicate ha]
      cases p <;> decide
  | four h => cases p <;> cases h <;> decide
  | nine h => cases p <;> cases h <;> decide

/-- A digit begins with a letter worth at most five of its place. -/
theorem Digit.head_le {p : Place} {s : Spelling} (h : p.Digit s) : ∀ a ∈ s.head?, a.value ≤ 5 * p.unit := by
  cases h with
  | @ones k hk =>
    cases k with
    | zero => simp
    | succ k => cases p <;> simp [List.replicate_succ, one, unit, Letter.value]
  | fives h _ =>
    rintro a ⟨⟩
    cases p <;> cases h <;> decide
  | four h => cases p <;> cases h <;> decide
  | nine h => cases p <;> cases h <;> decide

/-! ### Taking a digit from the front of a spelling -/

/-- How often a letter stands at the front of a spelling, counted up to three. -/
def repeats (a : Letter) (s : Spelling) : Nat := ((s.take 3).takeWhile (· == a)).length

/-- How many letters at the front of a spelling are a digit without a subtraction:
an optional five and up to three ones. -/
def plainWidth (p : Place) : Spelling → Nat
  | a :: s => if p.five? = some a then repeats p.one s + 1 else repeats p.one (a :: s)
  | [] => 0

/-- How many letters at the front of a spelling belong to a place: a one before five
or ten, or else an optional five and up to three ones. -/
def width (p : Place) : Spelling → Nat
  | a :: b :: s =>
    if a = p.one ∧ (p.five? = some b ∨ p.ten? = some b) then 2 else p.plainWidth (a :: b :: s)
  | s => p.plainWidth s

theorem repeats_le (a : Letter) (s : Spelling) : repeats a s ≤ 3 :=
  Nat.le_trans (List.takeWhile_sublist _).length_le (List.length_take_le 3 s)

theorem take_repeats (a : Letter) (s : Spelling) : s.take (repeats a s) = List.replicate (repeats a s) a := by
  have hpre : (s.take 3).takeWhile (· == a) <+: s :=
    (List.takeWhile_prefix _).trans (List.take_prefix 3 s)
  have htake : s.take (repeats a s) = (s.take 3).takeWhile (· == a) := (List.prefix_iff_eq_take.mp hpre).symm
  rw [htake, repeats]
  refine List.eq_replicate_iff.mpr ⟨rfl, fun b hb => ?_⟩
  have := List.all_eq_true.mp List.all_takeWhile b hb
  simpa using this

theorem digit_take_plainWidth (p : Place) : ∀ s : Spelling, p.Digit (s.take (p.plainWidth s))
  | [] => .ones (Nat.zero_le 3)
  | a :: s => by
    rw [plainWidth]
    split
    next h =>
      rw [List.take_succ_cons, take_repeats]
      exact .fives h (repeats_le _ _)
    next =>
      rw [take_repeats]
      exact .ones (repeats_le _ _)

/-- What a place takes from the front of a spelling is one of its digits. -/
theorem digit_take_width (p : Place) : ∀ s : Spelling, p.Digit (s.take (p.width s))
  | [] => digit_take_plainWidth p []
  | [a] => digit_take_plainWidth p [a]
  | a :: b :: s => by
    rw [width]
    split
    next h =>
      obtain ⟨rfl, hb | hb⟩ := h
      · exact .four hb
      · exact .nine hb
    next => exact digit_take_plainWidth p (a :: b :: s)

end Place

end Roman
