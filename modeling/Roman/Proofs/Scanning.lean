import Roman.Grammar

/-!
# Scanning is exact

A place takes letters greedily, and it never looks beyond the second letter to decide
how. In a well-formed spelling this is enough: what follows a digit begins with a
letter below the place, so each place takes exactly its digit
(`Place.width_digit_append`) and nothing is left at the end
(`Spelling.WellFormed.scan_rest`). So a spelling is kept if and only if it is well
formed, and a text is read if and only if it is the text of a well-formed spelling
(`Spelling.ofText_eq_ok_iff`).
-/

namespace Roman

namespace Place

/-! ### What a place takes -/

/-- All ones at the front are counted if there are at most three of them. -/
theorem repeats_replicate_append {a : Letter} {k : Nat} {s : Spelling} (hk : k ≤ 3)
    (hs : ∀ b ∈ s.head?, b ≠ a) : repeats a (List.replicate k a ++ s) = k := by
  have hrest : ∀ n, (s.take n).takeWhile (· == a) = [] := fun n => by
    cases n with
    | zero => simp
    | succ n =>
      cases s with
      | nil => simp
      | cons b s =>
        have hb : b ≠ a := hs b rfl
        simp [hb]
  rw [repeats, List.take_append, List.take_of_length_le (by simpa using hk),
    List.takeWhile_append_of_pos (by simp), hrest]
  simp

variable {p : Place}

/-- A place takes nothing from letters that are below it. -/
theorem width_of_below {s : Spelling} (hs : ∀ a ∈ s.head?, a.value < p.unit) : p.width s = 0 := by
  cases s with
  | nil => rfl
  | cons a s =>
    have ha : a.value < p.unit := hs a rfl
    have hone : a ≠ p.one := fun h => by rw [h, one_value] at ha; omega
    have hfive : p.five? ≠ some a := fun h => by rw [five_value h] at ha; omega
    have hplain : p.plainWidth (a :: s) = 0 := by
      rw [plainWidth, if_neg hfive]
      exact repeats_replicate_append (k := 0) (Nat.zero_le 3) fun b hb => by cases hb; exact hone
    cases s with
    | nil => exact hplain
    | cons b s => rw [width, if_neg fun h => hone h.1, hplain]

/-- After a one, a place takes ones only, unless a letter above the place follows. -/
theorem width_one_cons {s : Spelling} (hs : ∀ b ∈ s.head?, b.value ≤ p.unit) :
    p.width (p.one :: s) = repeats p.one (p.one :: s) := by
  have hunit := p.unit_pos
  have hplain : p.plainWidth (p.one :: s) = repeats p.one (p.one :: s) := by
    rw [plainWidth, if_neg fun h => ?_]
    have := five_value h
    rw [one_value] at this
    omega
  cases s with
  | nil => exact hplain
  | cons b s =>
    have hb : b.value ≤ p.unit := hs b rfl
    rw [width, if_neg, hplain]
    rintro ⟨-, h | h⟩
    · rw [five_value h] at hb; omega
    · rw [ten_value h] at hb; omega

/-- A place takes a five with the ones after it. -/
theorem width_five_cons {five : Letter} (h : p.five? = some five) (s : Spelling) :
    p.width (five :: s) = repeats p.one s + 1 := by
  have hunit := p.unit_pos
  have hone : five ≠ p.one := fun e => by
    have := five_value h
    rw [e, one_value] at this
    omega
  have hplain : p.plainWidth (five :: s) = repeats p.one s + 1 := by rw [plainWidth, if_pos h]
  cases s with
  | nil => exact hplain
  | cons b s => rw [width, if_neg fun h => hone h.1, hplain]

/-- A place takes exactly its digit if what follows is below the place. -/
theorem width_digit_append {d s : Spelling} (hd : p.Digit d)
    (hs : ∀ a ∈ s.head?, a.value < p.unit) :
    p.width (d ++ s) = d.length := by
  have hne : ∀ a ∈ s.head?, a ≠ p.one := fun a ha h => by
    have := hs a ha
    rw [h, one_value] at this
    omega
  cases hd with
  | @ones k hk =>
    cases k with
    | zero => exact width_of_below hs
    | succ k =>
      have hnext : ∀ b ∈ (List.replicate k p.one ++ s).head?, b.value ≤ p.unit := by
        cases k with
        | zero => exact fun b hb => Nat.le_of_lt (hs b hb)
        | succ k =>
          rintro b ⟨⟩
          exact Nat.le_of_eq p.one_value
      have hwidth : p.width (p.one :: (List.replicate k p.one ++ s)) =
          repeats p.one (List.replicate (k + 1) p.one ++ s) := width_one_cons hnext
      rw [repeats_replicate_append hk hne] at hwidth
      rw [List.length_replicate]
      exact hwidth
  | @fives five k h hk =>
    rw [List.cons_append, width_five_cons h, repeats_replicate_append hk hne]
    simp
  | four h => exact if_pos ⟨rfl, .inl h⟩
  | nine h => exact if_pos ⟨rfl, .inr h⟩

end Place

/-- A step leaves what follows the digit of its place. -/
theorem Scan.step_rest {p : Place} {d rest : Spelling} {s : Scan} (hd : p.Digit d)
    (h : s.rest = d ++ rest)
    (hrest : ∀ a ∈ rest.head?, a.value < p.unit) : (s.step p).rest = rest := by
  have hwidth : p.width s.rest = d.length := by rw [h, Place.width_digit_append hd hrest]
  rw [step]
  split
  next hzero =>
    have : d = [] := List.length_eq_zero_iff.mp (hwidth.symm.trans hzero)
    rw [h, this, List.nil_append]
  next =>
    show s.rest.drop (p.width s.rest) = rest
    rw [hwidth, h, List.drop_left]

namespace Spelling

/-- A well-formed spelling is scanned to its end. -/
theorem WellFormed.scan_rest {s : Spelling} (h : s.WellFormed) : s.scan.rest = [] := by
  obtain ⟨-, a, b, c, d, ha, hb, hc, hd, rfl⟩ := h
  obtain ⟨hb_head, hc_head, hd_head⟩ := heads_le hb hc hd
  have h₁ := Scan.step_rest (s := ⟨a ++ (b ++ (c ++ d)), .thousands⟩) ha rfl
    fun x hx => Nat.lt_of_le_of_lt (hb_head x hx) (by decide)
  have h₂ := Scan.step_rest hb h₁ fun x hx => Nat.lt_of_le_of_lt (hc_head x hx) (by decide)
  have h₃ := Scan.step_rest hc h₂ fun x hx => Nat.lt_of_le_of_lt (hd_head x hx) (by decide)
  exact Scan.step_rest hd (h₃.trans (List.append_nil d).symm) (by simp)

/-- A well-formed spelling is kept. -/
theorem check_of_wellFormed {s : Spelling} (h : s.WellFormed) : check s = .ok ⟨s, h⟩ := by
  rw [check, dif_neg h.1, dif_pos h.scan_rest]

/-- What is kept is the spelling itself. -/
theorem eq_of_check {s : Spelling} {t : { s : Spelling // s.WellFormed }} (h : check s = .ok t) :
    t.1 = s := by
  rw [check] at h
  split at h
  · cases h
  · split at h <;> cases h
    rfl

/-! ### Texts -/

/-- The characters of a spelling are read as its letters. -/
theorem ofChars_chars (s : Spelling) : ∀ position, ofChars position s.chars = .ok s := by
  induction s with
  | nil => exact fun _ => rfl
  | cons a s ih =>
    intro position
    rw [chars_cons, ofChars, Letter.ofChar?_char]
    simp only [ih]
    rfl

/-- Characters that are read are those of the letters. -/
theorem chars_of_ofChars {cs : List Char} :
    ∀ {position : Nat} {s : Spelling}, ofChars position cs = .ok s → chars s = cs := by
  induction cs with
  | nil =>
    rintro position s ⟨⟩
    rfl
  | cons c cs ih =>
    intro position s h
    rw [ofChars] at h
    split at h
    next => cases h
    next a ha =>
      cases hrest : ofChars (position + c.utf8Size) cs with
      | error e => rw [hrest] at h; cases h
      | ok rest =>
        rw [hrest] at h
        cases h
        rw [chars_cons, ih hrest, Letter.char_of_ofChar? ha]

/-- A text is read as a spelling if and only if it is the text of that spelling. -/
theorem ofText_eq_ok_iff {text : String} {s : { s : Spelling // s.WellFormed }} :
    ofText text = .ok s ↔ text = s.1.text := by
  constructor
  · intro h
    rw [ofText] at h
    cases hchars : ofChars 0 text.toList with
    | error e => rw [hchars] at h; cases h
    | ok t =>
      rw [hchars] at h
      rw [eq_of_check h, Spelling.text, chars_of_ofChars hchars, String.ofList_toList]
  · rintro rfl
    rw [ofText, Spelling.text, String.toList_ofList, ofChars_chars]
    exact check_of_wellFormed s.2

end Spelling

end Roman
