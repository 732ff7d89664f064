import Roman.Place

/-!
# The grammar of numerals

A spelling is well formed if it is not empty and consists of a digit of each
place, from the thousands down to the units (`Spelling.WellFormed`). A text is
read in two steps: `Spelling.ofChars` turns its characters into letters, and
`Spelling.check` scans the letters place by place, each place taking what it can
from the front. What is accepted carries the proof that it is well formed; what is
not is answered with the cause, a `Rejection`.

The value of a well-formed spelling is between 1 and 3999
(`Spelling.WellFormed.value_pos`, `Spelling.WellFormed.value_le`).
-/

namespace Roman

/-- Why a text is not a numeral. -/
inductive Rejection where
  /-- There is no letter at all. -/
  | empty
  /-- A character is not one of the seven letters; the position counts the bytes
  before it. -/
  | foreign (character : Char) (position : Nat)
  /-- Letters are left when all places have been scanned; `after` is the last place
  that took a letter, or the thousands if none did. -/
  | leftover (rest : Spelling) (after : Place)
  deriving DecidableEq

/-- The cause of a rejection in words. -/
def Rejection.message : Rejection → String
  | empty => "input is empty"
  | foreign character position => s!"invalid character '{character}' at position {position}"
  | leftover rest after => s!"unexpected '{rest.text}' after the {after.name} phase"

/-! ### Scanning -/

/-- How far a spelling has been scanned. -/
structure Scan where
  /-- The letters that are left. -/
  rest : Spelling
  /-- The last place that took a letter. -/
  last : Place

/-- The scan of one more place. -/
def Scan.step (s : Scan) (p : Place) : Scan :=
  if p.width s.rest = 0 then s else ⟨s.rest.drop (p.width s.rest), p⟩

/-- The scan of all places. -/
def Spelling.scan (s : Spelling) : Scan := Place.all.foldl Scan.step ⟨s, .thousands⟩

/-- A step takes one digit of its place. -/
theorem Scan.exists_digit (s : Scan) (p : Place) : ∃ d, p.Digit d ∧ s.rest = d ++ (s.step p).rest := by
  unfold step
  split
  · exact ⟨[], .ones (Nat.zero_le 3), rfl⟩
  · exact ⟨_, p.digit_take_width s.rest, (List.take_append_drop _ _).symm⟩

namespace Spelling

/-- A well-formed spelling has at least one letter and is a digit of the
thousands, one of the hundreds, one of the tens and one of the units. -/
def WellFormed (s : Spelling) : Prop :=
  s ≠ [] ∧ ∃ a b c d, Place.thousands.Digit a ∧ Place.hundreds.Digit b ∧ Place.tens.Digit c ∧
    Place.units.Digit d ∧ s = a ++ (b ++ (c ++ d))

/-- A spelling that is scanned to its end is well formed. -/
theorem wellFormed_of_scan {s : Spelling} (hne : s ≠ []) (h : s.scan.rest = []) : s.WellFormed := by
  obtain ⟨a, ha, ea⟩ := Scan.exists_digit ⟨s, .thousands⟩ .thousands
  obtain ⟨b, hb, eb⟩ := Scan.exists_digit (Scan.step ⟨s, .thousands⟩ .thousands) .hundreds
  obtain ⟨c, hc, ec⟩ := Scan.exists_digit (Scan.step (Scan.step ⟨s, .thousands⟩ .thousands) .hundreds) .tens
  obtain ⟨d, hd, ed⟩ :=
    Scan.exists_digit (Scan.step (Scan.step (Scan.step ⟨s, .thousands⟩ .thousands) .hundreds) .tens) .units
  refine ⟨hne, a, b, c, d, ha, hb, hc, hd, ?_⟩
  have hrest : (Scan.step (Scan.step (Scan.step (Scan.step ⟨s, .thousands⟩ .thousands) .hundreds) .tens)
      .units).rest = [] := h
  rw [hrest, List.append_nil] at ed
  rw [← ed, ← ec, ← eb]
  exact ea

/-! ### The value of a well-formed spelling -/

/-- A digit adds its value to what follows, if that begins with no letter above
its place. -/
theorem value_digit_append {p : Place} {d s : Spelling} (hd : p.Digit d)
    (hs : ∀ a ∈ s.head?, a.value ≤ p.unit) : value (d ++ s) = value d + value s :=
  value_append fun a ha b hb => Nat.le_trans (hs b hb) (hd.unit_le a (List.mem_of_getLast? ha))

/-- What begins with a digit begins with no letter above five of its place, if that
is so for what follows. -/
theorem head_digit_append {p : Place} {d s : Spelling} (hd : p.Digit d)
    (hs : ∀ a ∈ s.head?, a.value ≤ 5 * p.unit) : ∀ a ∈ (d ++ s).head?, a.value ≤ 5 * p.unit := by
  cases d with
  | nil => exact hs
  | cons a d => exact hd.head_le

/-- Each place leaves to those after it what begins with a letter below it. -/
theorem heads_le {b c d : Spelling} (hb : Place.hundreds.Digit b) (hc : Place.tens.Digit c)
    (hd : Place.units.Digit d) :
    (∀ x ∈ (b ++ (c ++ d)).head?, x.value ≤ 500) ∧ (∀ x ∈ (c ++ d).head?, x.value ≤ 50) ∧
      ∀ x ∈ d.head?, x.value ≤ 5 := by
  have hd' : ∀ x ∈ d.head?, x.value ≤ 5 := hd.head_le
  have hc' : ∀ x ∈ (c ++ d).head?, x.value ≤ 50 :=
    head_digit_append hc fun x hx => Nat.le_trans (hd' x hx) (by decide)
  have hb' : ∀ x ∈ (b ++ (c ++ d)).head?, x.value ≤ 500 :=
    head_digit_append hb fun x hx => Nat.le_trans (hc' x hx) (by decide)
  exact ⟨hb', hc', hd'⟩

/-- The values of the digits of a well-formed spelling add up. -/
theorem value_digits {a b c d : Spelling} (ha : Place.thousands.Digit a) (hb : Place.hundreds.Digit b)
    (hc : Place.tens.Digit c) (hd : Place.units.Digit d) :
    value (a ++ (b ++ (c ++ d))) = value a + (value b + (value c + value d)) := by
  obtain ⟨hb', hc', hd'⟩ := heads_le hb hc hd
  rw [value_digit_append ha fun x hx => Nat.le_trans (hb' x hx) (by decide),
    value_digit_append hb fun x hx => Nat.le_trans (hc' x hx) (by decide),
    value_digit_append hc fun x hx => Nat.le_trans (hd' x hx) (by decide)]

theorem WellFormed.value_pos {s : Spelling} (h : s.WellFormed) : 1 ≤ s.value :=
  Spelling.value_pos h.1

theorem WellFormed.value_le {s : Spelling} (h : s.WellFormed) : s.value ≤ 3999 := by
  obtain ⟨-, a, b, c, d, ha, hb, hc, hd, rfl⟩ := h
  rw [value_digits ha hb hc hd]
  have h₁ := ha.value_le_of_thousands
  have h₂ : value b ≤ 900 := hb.value_le
  have h₃ : value c ≤ 90 := hc.value_le
  have h₄ : value d ≤ 9 := hd.value_le
  omega

/-! ### Reading a text -/

/-- The letters of a text, or its first foreign character; `position` is the
number of bytes before the text. -/
def ofChars (position : Nat) : List Char → Except Rejection Spelling
  | [] => .ok []
  | c :: cs =>
    match Letter.ofChar? c with
    | none => .error (.foreign c position)
    | some a => (ofChars (position + c.utf8Size) cs).map (a :: ·)

/-- Scans a spelling and keeps it if it is well formed. -/
def check (s : Spelling) : Except Rejection { s : Spelling // s.WellFormed } :=
  if hne : s = [] then .error .empty
  else if hrest : s.scan.rest = [] then .ok ⟨s, wellFormed_of_scan hne hrest⟩
  else .error (.leftover s.scan.rest s.scan.last)

/-- The well-formed spelling that a text is, or why it is none. A foreign
character is reported before anything about the order of the letters. -/
def ofText (text : String) : Except Rejection { s : Spelling // s.WellFormed } :=
  ofChars 0 text.toList >>= check

end Spelling

end Roman
