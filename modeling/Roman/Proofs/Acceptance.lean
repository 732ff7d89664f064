import Mathlib.Data.List.Basic
import Mathlib.Data.String.Basic
import Roman.Numeral
import Roman.Proofs.Scanning

/-!
# Which texts are numerals

The texts of numerals, as a language over characters: up to three `M`, and then a digit each of
the hundreds, of the tens and of the units (`SplitsInto`). The digits are given by the characters
that stand for one, five and ten (`DigitText`), and nothing here looks at how a text is scanned.

A text is accepted if and only if it is not empty and can be split in this way
(`Numeral.accepts_iff_splits`). The scan goes through a spelling by positions
(`Spelling.positions`), which are numbers of bytes as well as of letters. They never leave the
text, and where a text can be split they are the ends of its parts, so that it can be split in one
way only.
-/

namespace Roman

/-! ### The language -/

/-- The digits over three characters, which stand for one, five and ten. -/
inductive DigitText (one five ten : Char) : List Char → Prop where
  /-- One before ten. -/
  | nine : DigitText one five ten [one, ten]
  /-- One before five. -/
  | four : DigitText one five ten [one, five]
  /-- Up to three ones. -/
  | ones {k : Nat} (hk : k ≤ 3) : DigitText one five ten (List.replicate k one)
  /-- A five with up to three ones. -/
  | fives {k : Nat} (hk : k ≤ 3) : DigitText one five ten (five :: List.replicate k one)

/-- Characters are the four parts of a numeral, one after the other; each of them may be empty. -/
structure SplitsInto (cs a b c d : List Char) : Prop where
  /-- Up to three `M`. -/
  thousands : ∃ k ≤ 3, a = List.replicate k 'M'
  /-- A digit of the hundreds. -/
  hundreds : DigitText 'C' 'D' 'M' b
  /-- A digit of the tens. -/
  tens : DigitText 'X' 'L' 'C' c
  /-- A digit of the units. -/
  units : DigitText 'I' 'V' 'X' d
  /-- There is nothing else. -/
  eq_append : cs = a ++ (b ++ (c ++ d))

/-! ### Letters and characters -/

theorem Letter.char_injective {a b : Letter} (h : a.char = b.char) : a = b := by
  have := congrArg Letter.ofChar? h
  simpa using this

namespace Spelling

@[simp] theorem chars_append (s t : Spelling) : chars (s ++ t) = chars s ++ chars t :=
  List.map_append

theorem chars_replicate (k : Nat) (a : Letter) :
    chars (List.replicate k a) = List.replicate k a.char :=
  List.map_replicate

theorem chars_injective {s t : Spelling} (h : chars s = chars t) : s = t :=
  List.map_injective_iff.mpr (fun _ _ => Letter.char_injective) h

theorem text_eq_empty_iff {s : Spelling} : s.text = "" ↔ s = [] := by
  rw [text, String.ofList_eq_empty_iff, chars, List.map_eq_nil_iff]

end Spelling

/-- The digits over the characters of a place are what its digits are written as. -/
theorem digitText_iff {p : Place} {five ten : Letter} (hfive : p.five? = some five)
    (hten : p.ten? = some ten) {cs : List Char} :
    DigitText p.one.char five.char ten.char cs ↔ ∃ d, p.Digit d ∧ Spelling.chars d = cs := by
  constructor
  · intro h
    cases h with
    | nine => exact ⟨_, .nine hten, rfl⟩
    | four => exact ⟨_, .four hfive, rfl⟩
    | ones hk => exact ⟨_, .ones hk, Spelling.chars_replicate _ _⟩
    | fives hk => exact ⟨_, .fives hfive hk, by rw [Spelling.chars_cons, Spelling.chars_replicate]⟩
  · rintro ⟨d, hd, rfl⟩
    cases hd with
    | ones hk =>
      rw [Spelling.chars_replicate]
      exact .ones hk
    | fives h hk =>
      cases h.symm.trans hfive
      rw [Spelling.chars_cons, Spelling.chars_replicate]
      exact .fives hk
    | four h =>
      cases h.symm.trans hfive
      exact .four
    | nine h =>
      cases h.symm.trans hten
      exact .nine

/-- The thousands are written with `M` alone. -/
theorem exists_replicate_iff {cs : List Char} :
    (∃ k ≤ 3, cs = List.replicate k 'M') ↔ ∃ d, Place.thousands.Digit d ∧ Spelling.chars d = cs := by
  constructor
  · rintro ⟨k, hk, rfl⟩
    exact ⟨_, .ones hk, Spelling.chars_replicate _ _⟩
  · rintro ⟨d, hd, rfl⟩
    cases hd with
    | @ones k hk => exact ⟨k, hk, Spelling.chars_replicate _ _⟩
    | fives h => cases h
    | four h => cases h
    | nine h => cases h

/-- What digits of the four places are written as can be split into what each is written as. -/
theorem splitsInto_of_digits {a b c d : Spelling} (ha : Place.thousands.Digit a)
    (hb : Place.hundreds.Digit b) (hc : Place.tens.Digit c) (hd : Place.units.Digit d) :
    SplitsInto (Spelling.chars (a ++ (b ++ (c ++ d)))) (Spelling.chars a) (Spelling.chars b)
      (Spelling.chars c) (Spelling.chars d) where
  thousands := exists_replicate_iff.mpr ⟨a, ha, rfl⟩
  hundreds := (digitText_iff (p := .hundreds) rfl rfl).mpr ⟨b, hb, rfl⟩
  tens := (digitText_iff (p := .tens) rfl rfl).mpr ⟨c, hc, rfl⟩
  units := (digitText_iff (p := .units) rfl rfl).mpr ⟨d, hd, rfl⟩
  eq_append := by simp

/-- What can be split is what digits of the four places are written as. -/
theorem SplitsInto.exists_digits {cs a b c d : List Char} (h : SplitsInto cs a b c d) :
    ∃ a' b' c' d', Place.thousands.Digit a' ∧ Place.hundreds.Digit b' ∧ Place.tens.Digit c' ∧
      Place.units.Digit d' ∧ a = Spelling.chars a' ∧ b = Spelling.chars b' ∧
      c = Spelling.chars c' ∧ d = Spelling.chars d' ∧
      cs = Spelling.chars (a' ++ (b' ++ (c' ++ d'))) := by
  obtain ⟨ha, hb, hc, hd, rfl⟩ := h
  obtain ⟨a', ha', rfl⟩ := exists_replicate_iff.mp ha
  obtain ⟨b', hb', rfl⟩ := (digitText_iff (p := .hundreds) rfl rfl).mp hb
  obtain ⟨c', hc', rfl⟩ := (digitText_iff (p := .tens) rfl rfl).mp hc
  obtain ⟨d', hd', rfl⟩ := (digitText_iff (p := .units) rfl rfl).mp hd
  exact ⟨a', b', c', d', ha', hb', hc', hd', rfl, rfl, rfl, rfl, by simp⟩

/-! ### The positions of a scan -/

theorem Place.plainWidth_le_length (p : Place) : ∀ s : Spelling, p.plainWidth s ≤ s.length
  | [] => Nat.le_refl 0
  | a :: s => by
    have hle : ∀ b t, repeats b t ≤ t.length := fun b t =>
      Nat.le_trans (List.takeWhile_sublist _).length_le (List.length_take_le' 3 t)
    rw [plainWidth]
    split
    · exact Nat.succ_le_succ (hle _ _)
    · exact hle _ _

/-- A place takes no more letters than there are. -/
theorem Place.width_le_length (p : Place) : ∀ s : Spelling, p.width s ≤ s.length
  | [] => p.plainWidth_le_length []
  | [a] => p.plainWidth_le_length [a]
  | a :: b :: s => by
    rw [width]
    split
    · simp
    · exact p.plainWidth_le_length (a :: b :: s)

namespace Spelling

/-- The place takes its letters at a position of a spelling, and this is where it stops. -/
def advance (s : Spelling) (position : Nat) (p : Place) : Nat :=
  position + p.width (s.drop position)

/-- The positions of the scan of a spelling: where it begins, and where each place stops. -/
def positions (s : Spelling) : List Nat := Place.all.scanl s.advance 0

/-- The scan of a spelling: how far it is at the beginning, and after each place. -/
def scans (s : Spelling) : List Scan := Place.all.scanl Scan.step ⟨s, .thousands⟩

theorem getLast?_scans (s : Spelling) : s.scans.getLast? = some s.scan := by
  rw [scans, List.getLast?_scanl, scan]

theorem advance_le_length {s : Spelling} {position : Nat} (h : position ≤ s.length) (p : Place) :
    s.advance position p ≤ s.length := by
  have hwidth := p.width_le_length (s.drop position)
  rw [List.length_drop] at hwidth
  rw [advance]
  omega

/-- A step leaves what follows the position where its place stops. -/
theorem step_rest_drop (s : Spelling) (position : Nat) (last p : Place) :
    (Scan.step ⟨s.drop position, last⟩ p).rest = s.drop (s.advance position p) := by
  rw [Scan.step, advance]
  split
  next h => rw [h, Nat.add_zero]
  next => exact List.drop_drop

/-- What is left at the positions is what the scan leaves. -/
theorem rest_scanl_step (s : Spelling) (ps : List Place) :
    ∀ (position : Nat) (t : Scan), t.rest = s.drop position →
      (ps.scanl Scan.step t).map Scan.rest = (ps.scanl s.advance position).map s.drop := by
  induction ps with
  | nil =>
    intro position t ht
    simp [ht]
  | cons p ps ih =>
    rintro position ⟨rest, last⟩ rfl
    rw [List.scanl_cons, List.scanl_cons, List.map_cons, List.map_cons,
      ih _ _ (step_rest_drop s position last p)]

/-- No position is beyond the end of the spelling. -/
theorem le_length_of_mem_scanl {s : Spelling} (ps : List Place) :
    ∀ {position : Nat}, position ≤ s.length →
      ∀ i ∈ ps.scanl s.advance position, position ≤ i ∧ i ≤ s.length := by
  induction ps with
  | nil =>
    intro position h i hi
    rw [List.scanl_nil, List.mem_singleton] at hi
    omega
  | cons p ps ih =>
    intro position h i hi
    rw [List.scanl_cons, List.mem_cons] at hi
    obtain rfl | hi := hi
    · exact ⟨Nat.le_refl _, h⟩
    · obtain ⟨hle, hlength⟩ := ih (advance_le_length h p) i hi
      exact ⟨Nat.le_trans (Nat.le_add_right _ _) hle, hlength⟩

/-- A letter takes one byte, so a spelling has as many bytes as letters. -/
theorem utf8ByteSize_text (s : Spelling) : s.text.utf8ByteSize = s.length := by
  rw [text, String.utf8ByteSize_ofList]
  induction s with
  | nil => rfl
  | cons a s ih =>
    have ha : a.char.utf8Size = 1 := by cases a <;> rfl
    rw [chars_cons, String.utf8Len_cons, ih, ha, List.length_cons]

/-- A position of the scan is the end of a part of the text, in bytes. -/
theorem exists_text_of_mem_positions {s : Spelling} {i : Nat} (h : i ∈ s.positions) :
    ∃ before after : String, s.text = before ++ after ∧ before.utf8ByteSize = i := by
  have hle : i ≤ s.length := (le_length_of_mem_scanl Place.all (Nat.zero_le _) i h).2
  refine ⟨text (s.take i), text (s.drop i), ?_, ?_⟩
  · rw [text, text, text, ← String.ofList_append, ← chars_append, List.take_append_drop]
  · rw [utf8ByteSize_text, List.length_take, Nat.min_eq_left hle]

/-- A place that finds its digit stops at the end of it. -/
theorem advance_of_digit {s d rest : Spelling} {position : Nat} {p : Place} (hd : p.Digit d)
    (h : s.drop position = d ++ rest) (hrest : ∀ a ∈ rest.head?, a.value < p.unit) :
    s.advance position p = position + d.length ∧ s.drop (position + d.length) = rest := by
  constructor
  · rw [advance, h, Place.width_digit_append hd hrest]
  · rw [← List.drop_drop, h, List.drop_left]

/-- The positions of the scan are the ends of the digits of the places. -/
theorem positions_of_digits {a b c d : Spelling} (ha : Place.thousands.Digit a)
    (hb : Place.hundreds.Digit b) (hc : Place.tens.Digit c) (hd : Place.units.Digit d) :
    positions (a ++ (b ++ (c ++ d))) =
      [0, a.length, a.length + b.length, a.length + b.length + c.length,
        a.length + b.length + c.length + d.length] := by
  obtain ⟨hb_head, hc_head, hd_head⟩ := heads_le hb hc hd
  have r₀ : (a ++ (b ++ (c ++ d))).drop 0 = a ++ (b ++ (c ++ d)) := rfl
  obtain ⟨h₁, r₁⟩ := advance_of_digit ha r₀ fun x hx => Nat.lt_of_le_of_lt (hb_head x hx) (by decide)
  obtain ⟨h₂, r₂⟩ := advance_of_digit hb r₁ fun x hx => Nat.lt_of_le_of_lt (hc_head x hx) (by decide)
  obtain ⟨h₃, r₃⟩ := advance_of_digit hc r₂ fun x hx => Nat.lt_of_le_of_lt (hd_head x hx) (by decide)
  obtain ⟨h₄, -⟩ := advance_of_digit hd (r₃.trans (List.append_nil d).symm) (by simp)
  rw [Nat.zero_add] at h₁ h₂ h₃ h₄
  simp only [positions, Place.all, List.scanl_cons, List.scanl_nil, h₁, h₂, h₃, h₄]

/-- A foreign character stands at the position that is reported with it. -/
theorem exists_of_ofChars_error {cs : List Char} :
    ∀ {start : Nat} {character : Char} {position : Nat},
      ofChars start cs = .error (.foreign character position) →
        ∃ before after, cs = before ++ character :: after ∧
          position = start + String.utf8Len before := by
  induction cs with
  | nil => exact nofun
  | cons c cs ih =>
    intro start character position h
    rw [ofChars] at h
    split at h
    next =>
      cases h
      exact ⟨[], cs, rfl, rfl⟩
    next a _ =>
      cases hrest : ofChars (start + c.utf8Size) cs with
      | ok rest => rw [hrest] at h; cases h
      | error e =>
        rw [hrest] at h
        cases h
        obtain ⟨before, after, rfl, rfl⟩ := ih hrest
        exact ⟨c :: before, after, rfl, by rw [String.utf8Len_cons]; omega⟩

/-- A text is read as a spelling if and only if it is not empty and can be split. -/
theorem exists_ofText_eq_ok_iff {text : String} :
    (∃ s, ofText text = .ok s) ↔ text ≠ "" ∧ ∃ a b c d, SplitsInto text.toList a b c d := by
  constructor
  · rintro ⟨⟨s, hs⟩, h⟩
    obtain rfl := ofText_eq_ok_iff.mp h
    obtain ⟨hne, a, b, c, d, ha, hb, hc, hd, rfl⟩ := hs
    refine ⟨fun hempty => hne (text_eq_empty_iff.mp hempty), chars a, chars b, chars c, chars d, ?_⟩
    rw [Spelling.text, String.toList_ofList]
    exact splitsInto_of_digits ha hb hc hd
  · rintro ⟨hne, _, _, _, _, h⟩
    obtain ⟨a, b, c, d, ha, hb, hc, hd, -, -, -, -, hchars⟩ := h.exists_digits
    have htext : text = Spelling.text (a ++ (b ++ (c ++ d))) := by
      rw [Spelling.text, ← hchars, String.ofList_toList]
    have hnil : a ++ (b ++ (c ++ d)) ≠ [] := fun hnil =>
      hne (htext.trans (text_eq_empty_iff.mpr hnil))
    exact ⟨⟨_, hnil, a, b, c, d, ha, hb, hc, hd, rfl⟩, ofText_eq_ok_iff.mpr htext⟩

theorem exists_of_ofText_error {text : String} {character : Char} {position : Nat}
    (h : ofText text = .error (.foreign character position)) :
    ∃ before after : String, text = before ++ String.singleton character ++ after ∧
      before.utf8ByteSize = position := by
  rw [ofText] at h
  cases hchars : ofChars 0 text.toList with
  | ok s =>
    have hcheck : check s = .error (.foreign character position) := by rwa [hchars] at h
    rw [check] at hcheck
    split at hcheck
    · cases hcheck
    · split at hcheck <;> cases hcheck
  | error e =>
    rw [hchars] at h
    cases h
    obtain ⟨before, after, htext, hposition⟩ := exists_of_ofChars_error hchars
    refine ⟨String.ofList before, String.ofList after, ?_, ?_⟩
    · rw [← String.toList_inj, htext]
      simp
    · rw [String.utf8ByteSize_ofList, hposition, Nat.zero_add]

end Spelling

namespace Numeral

theorem accepts_eq_true_iff {text : String} :
    accepts text = true ↔ ∃ s, Spelling.ofText text = .ok s := by
  rw [accepts]
  cases Spelling.ofText text with
  | ok s => exact iff_of_true rfl ⟨s, rfl⟩
  | error e =>
    constructor
    · intro h
      cases h
    · rintro ⟨s, hs⟩
      cases hs

/-- **Accepted are the texts that can be split, and no others.** A text is accepted, and read as a
spelling, if and only if it is not empty and is up to three `M` and then a digit of the hundreds, of
the tens and of the units. The scan of a spelling goes through positions that are ends, in bytes, of
parts of its text, and what is left to scan is what follows them; where the text can be split, the
positions are the ends of the four parts, so there is no other split. And a foreign character that
is reported stands in the text, after as many bytes as are reported. -/
theorem accepts_iff_splits :
    (∀ text : String, accepts text = true ↔
      text ≠ "" ∧ ∃ a b c d, SplitsInto text.toList a b c d) ∧
    (∀ text : String, (∃ s, Spelling.ofText text = .ok s) ↔
      text ≠ "" ∧ ∃ a b c d, SplitsInto text.toList a b c d) ∧
    (∀ s : Spelling, s.scans.getLast? = some s.scan ∧
      s.scans.map Scan.rest = s.positions.map s.drop ∧
      ∀ i ∈ s.positions, ∃ before after : String, s.text = before ++ after ∧
        before.utf8ByteSize = i) ∧
    (∀ (s : Spelling) (a b c d : List Char), SplitsInto s.chars a b c d →
      s.positions = [0, a.length, a.length + b.length, a.length + b.length + c.length,
        a.length + b.length + c.length + d.length]) ∧
    (∀ (text : String) (character : Char) (position : Nat),
      Spelling.ofText text = .error (.foreign character position) →
        ∃ before after : String, text = before ++ String.singleton character ++ after ∧
          before.utf8ByteSize = position) := by
  refine ⟨fun text => accepts_eq_true_iff.trans Spelling.exists_ofText_eq_ok_iff,
    fun text => Spelling.exists_ofText_eq_ok_iff, fun s => ⟨s.getLast?_scans, ?_, ?_⟩,
    fun s a b c d h => ?_, fun text character position h => Spelling.exists_of_ofText_error h⟩
  · exact s.rest_scanl_step Place.all 0 _ rfl
  · exact fun i hi => Spelling.exists_text_of_mem_positions hi
  · obtain ⟨a', b', c', d', ha, hb, hc, hd, rfl, rfl, rfl, rfl, hchars⟩ := h.exists_digits
    rw [Spelling.chars_injective hchars, Spelling.positions_of_digits ha hb hc hd]
    simp only [Spelling.chars, List.length_map]

/-- The second `C` of `CXC` belongs to the tens. -/
theorem accepts_iff_splits_CXC :
    accepts "CXC" = true ∧ Spelling.positions [.C, .X, .C] = [0, 0, 1, 3, 3] ∧
      ∃ before after : String, "CXéC" = before ++ String.singleton 'é' ++ after ∧
        before.utf8ByteSize = 2 := by
  have hsplit : SplitsInto (Spelling.chars [.C, .X, .C]) [] ['C'] ['X', 'C'] [] :=
    ⟨⟨0, by decide, rfl⟩, .ones (k := 1) (by decide), .nine, .ones (k := 0) (by decide), rfl⟩
  obtain ⟨haccepts, -, -, hpositions, hforeign⟩ := accepts_iff_splits
  exact ⟨(haccepts _).mpr ⟨by decide, _, _, _, _, hsplit⟩, hpositions _ _ _ _ _ hsplit,
    hforeign _ _ _ rfl⟩

end Numeral

end Roman
