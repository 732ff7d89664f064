import Roman.Proofs.Acceptance
import Roman.Proofs.Canonical

/-!
# Where a scan stops

A place looks ahead as far as the letter after the last one it takes, and no further
(`Place.width_congr`). So a scan that stops at a letter stops there whatever follows the letter
(`Scan.rest_foldl_congr`), and no well-formed spelling begins with what was taken and this letter.
What was taken is well formed itself (`Spelling.scan_stuck`). There is one cut only with these two
properties (`Spelling.eq_of_stuck`), so that they say exactly what a spelling is refused for
(`Spelling.check_eq_error_iff`).
-/

namespace Roman

/-! ### How far a place looks ahead -/

/-- How many elements are counted depends on no element after the first that is not. -/
theorem length_takeWhile_take_congr {α : Type} {f : α → Bool} {b : α} {y : List α} (z : List α) :
    ∀ {x : List α} {n : Nat}, (((x ++ b :: y).take n).takeWhile f).length ≤ x.length →
      (((x ++ b :: z).take n).takeWhile f).length = (((x ++ b :: y).take n).takeWhile f).length
  | _, 0, _ => by simp
  | [], n + 1, h => by
    cases hb : f b <;> simp_all
  | c :: x, n + 1, h => by
    cases hc : f c with
    | false => simp [hc]
    | true =>
      have hrest : (((x ++ b :: y).take n).takeWhile f).length ≤ x.length := by simpa [hc] using h
      simpa [hc] using length_takeWhile_take_congr z hrest

namespace Place

variable {p : Place}

theorem plainWidth_congr {b : Letter} {y : Spelling} (z : Spelling) {x : Spelling}
    (h : p.plainWidth (x ++ b :: y) ≤ x.length) :
    p.plainWidth (x ++ b :: z) = p.plainWidth (x ++ b :: y) := by
  cases x with
  | nil =>
    rw [List.nil_append, plainWidth] at h
    rw [List.nil_append, List.nil_append, plainWidth, plainWidth]
    split at h
    next => exact absurd h (by simp)
    next hfive =>
      rw [if_neg hfive, if_neg hfive]
      exact length_takeWhile_take_congr (x := []) z h
  | cons c x =>
    rw [List.cons_append, plainWidth] at h
    rw [List.cons_append, List.cons_append, plainWidth, plainWidth]
    split at h
    next hfive =>
      rw [if_pos hfive, if_pos hfive]
      exact congrArg (· + 1) (length_takeWhile_take_congr z (Nat.le_of_succ_le_succ h))
    next hfive =>
      rw [if_neg hfive, if_neg hfive]
      exact length_takeWhile_take_congr (x := c :: x) z h

theorem plainWidth_one_pos (s : Spelling) : 0 < p.plainWidth (p.one :: s) := by
  rw [plainWidth]
  split
  · exact Nat.succ_pos _
  · simp [repeats]

/-- **A place looks at one letter more than it takes.** What it takes does not depend on what follows
that letter. -/
theorem width_congr {b : Letter} {y : Spelling} (z : Spelling) {x : Spelling}
    (h : p.width (x ++ b :: y) ≤ x.length) : p.width (x ++ b :: z) = p.width (x ++ b :: y) := by
  match x with
  | [] =>
    -- a place that takes nothing does not begin a pair, as `b` is not its one
    have hplain : p.plainWidth (b :: y) = 0 ∧ p.width (b :: y) = 0 := by
      cases y with
      | nil => exact ⟨Nat.le_zero.mp h, Nat.le_zero.mp h⟩
      | cons c y =>
        rw [List.nil_append, width] at h
        split at h
        next => exact absurd h (by simp)
        next hpair => exact ⟨Nat.le_zero.mp h, by rw [width, if_neg hpair, Nat.le_zero.mp h]⟩
    have hone : b ≠ p.one := by
      rintro rfl
      exact absurd hplain.1 (Nat.pos_iff_ne_zero.mp (p.plainWidth_one_pos y))
    have hz : p.plainWidth (b :: z) = p.plainWidth (b :: y) :=
      plainWidth_congr (x := []) z (Nat.le_of_eq hplain.1)
    rw [List.nil_append, List.nil_append, hplain.2]
    cases z with
    | nil => exact hz.trans hplain.1
    | cons c z => rw [width, if_neg fun hpair => hone hpair.1, hz, hplain.1]
  | [c] =>
    rw [List.singleton_append, width] at h
    rw [List.singleton_append, List.singleton_append, width, width]
    split at h
    next => exact absurd h (by simp)
    next hpair =>
      rw [if_neg hpair, if_neg hpair]
      exact plainWidth_congr (x := [c]) z h
  | c :: d :: x =>
    rw [List.cons_append, List.cons_append, width] at h
    rw [List.cons_append, List.cons_append, List.cons_append, List.cons_append, width, width]
    split at h
    next hpair => rw [if_pos hpair, if_pos hpair]
    next hpair =>
      rw [if_neg hpair, if_neg hpair]
      exact plainWidth_congr (x := c :: d :: x) z h

end Place

/-! ### Where a scan stops -/

/-- A step takes a digit of its place, and the place is the last one unless that is empty. -/
theorem Scan.step_inversion (s : Scan) (p : Place) :
    ∃ d, p.Digit d ∧ s.rest = d ++ (s.step p).rest ∧
      (s.step p).last = if d = [] then s.last else p := by
  refine ⟨s.rest.take (p.width s.rest), p.digit_take_width s.rest, ?_⟩
  have hnil : s.rest.take (p.width s.rest) = [] ↔ p.width s.rest = 0 := by
    rw [← List.length_eq_zero_iff, List.length_take, Nat.min_eq_left (p.width_le_length s.rest)]
  rw [step]
  split
  next hzero => simp [hzero]
  next hwidth => exact ⟨(List.take_append_drop _ _).symm, by rw [if_neg (mt hnil.mp hwidth)]⟩

/-- What a scan leaves is the end of what it began with. -/
theorem Scan.rest_foldl_suffix (ps : List Place) :
    ∀ s : Scan, (ps.foldl Scan.step s).rest <:+ s.rest := by
  induction ps with
  | nil => exact fun s => List.suffix_rfl
  | cons p ps ih =>
    intro s
    obtain ⟨d, -, hd, -⟩ := s.step_inversion p
    rw [List.foldl_cons, hd]
    exact (ih (s.step p)).trans (List.suffix_append _ _)

/-- A scan that stops at a letter stops there whatever follows the letter. -/
theorem Scan.rest_foldl_congr {b : Letter} {y : Spelling} (z : Spelling) (ps : List Place) :
    ∀ {x : Spelling} {last : Place}, (ps.foldl Scan.step ⟨x ++ b :: y, last⟩).rest = b :: y →
      (ps.foldl Scan.step ⟨x ++ b :: z, last⟩).rest = b :: z := by
  induction ps with
  | nil =>
    intro x last h
    have hx : x = [] := List.append_left_eq_self.mp h
    rw [hx]
    rfl
  | cons p ps ih =>
    intro x last h
    rw [List.foldl_cons] at h ⊢
    have hsuffix := (Scan.rest_foldl_suffix ps (Scan.step ⟨x ++ b :: y, last⟩ p)).length_le
    rw [h, Scan.step] at hsuffix
    rw [Scan.step] at h ⊢
    dsimp only at h hsuffix ⊢
    by_cases hzero : p.width (x ++ b :: y) = 0
    · have hcongr : p.width (x ++ b :: z) = p.width (x ++ b :: y) :=
        Place.width_congr z (by rw [hzero]; exact Nat.zero_le _)
      rw [if_pos hzero] at h
      rw [if_pos (hcongr.trans hzero)]
      exact ih h
    · have hwidth : p.width (x ++ b :: y) ≤ x.length := by
        rw [if_neg hzero, List.length_drop, List.length_append, List.length_cons] at hsuffix
        have hle := p.width_le_length (x ++ b :: y)
        rw [List.length_append, List.length_cons] at hle
        omega
      have hcongr := Place.width_congr z hwidth
      rw [if_neg hzero, List.drop_append_of_le_length hwidth] at h
      rw [if_neg (hcongr ▸ hzero), hcongr, List.drop_append_of_le_length hwidth]
      exact ih h

/-! ### What stands before the place where a scan stops -/

/-- The digit of a place in a number. -/
def Place.digitOf (p : Place) (n : Nat) : Nat := n / p.unit % 10

/-- A place is the lowest one with a digit that is not zero. -/
def Place.IsLowest (p : Place) (n : Nat) : Prop :=
  p.digitOf n ≠ 0 ∧ ∀ q : Place, q.unit < p.unit → q.digitOf n = 0

theorem Place.unit_injective {p q : Place} (h : p.unit = q.unit) : p = q := by
  revert h
  cases p <;> cases q <;> decide

theorem Place.IsLowest.unique {p q : Place} {n : Nat} (hp : p.IsLowest n) (hq : q.IsLowest n) :
    p = q := by
  refine Place.unit_injective (Nat.le_antisymm ?_ ?_)
  · exact Nat.not_lt.mp fun hlt => hq.1 (hp.2 q hlt)
  · exact Nat.not_lt.mp fun hlt => hp.1 (hq.2 p hlt)

/-- The lowest place of a number that is given by its digits. -/
theorem Place.isLowest_of_digits {i j k l : Nat} (hi : i < 10) (hj : j < 10) (hk : k < 10)
    (hl : l < 10) (h : i ≠ 0 ∨ j ≠ 0 ∨ k ≠ 0 ∨ l ≠ 0) :
    IsLowest (if l = 0 then if k = 0 then if j = 0 then thousands else hundreds else tens else units)
      (i * 1000 + (j * 100 + (k * 10 + l * 1))) := by
  have h₁ : thousands.digitOf (i * 1000 + (j * 100 + (k * 10 + l * 1))) = i := by
    simp only [digitOf, unit]
    omega
  have h₂ : hundreds.digitOf (i * 1000 + (j * 100 + (k * 10 + l * 1))) = j := by
    simp only [digitOf, unit]
    omega
  have h₃ : tens.digitOf (i * 1000 + (j * 100 + (k * 10 + l * 1))) = k := by
    simp only [digitOf, unit]
    omega
  have h₄ : units.digitOf (i * 1000 + (j * 100 + (k * 10 + l * 1))) = l := by
    simp only [digitOf, unit]
    omega
  split_ifs with hl_zero hk_zero hj_zero
  all_goals
    refine ⟨by omega, fun q hq => ?_⟩
    cases q <;> simp only [unit] at hq <;> omega

/-- A digit is worth a number of units of its place, none if it is empty. -/
theorem Place.Digit.exists_count {p : Place} {d : Spelling} (h : p.Digit d) :
    ∃ k < 10, Spelling.value d = k * p.unit ∧ (d = [] ↔ k = 0) := by
  obtain ⟨k, hk, rfl⟩ := h.exists_eq
  refine ⟨k, Nat.lt_of_lt_of_le hk (by cases p <;> decide), Place.value_write hk, fun hnil => ?_, ?_⟩
  · have hvalue := Place.value_write hk
    rw [hnil, Spelling.value_nil] at hvalue
    exact (Nat.mul_eq_zero.mp hvalue.symm).resolve_right p.unit_pos.ne'
  · rintro rfl
    exact Place.write_ones (Nat.zero_le 3)

namespace Spelling

/-- A scan takes digits of the places, one after the other, and the last place is that of the last
digit which is not empty. -/
theorem scan_inversion (s : Spelling) :
    ∃ x, s = x ++ s.scan.rest ∧ (x ≠ [] → x.WellFormed ∧ s.scan.last.IsLowest x.value) := by
  obtain ⟨a, ha, ea, la⟩ := Scan.step_inversion ⟨s, .thousands⟩ .thousands
  obtain ⟨b, hb, eb, lb⟩ := Scan.step_inversion (Scan.step ⟨s, .thousands⟩ .thousands) .hundreds
  obtain ⟨c, hc, ec, lc⟩ :=
    Scan.step_inversion (Scan.step (Scan.step ⟨s, .thousands⟩ .thousands) .hundreds) .tens
  obtain ⟨d, hd, ed, ld⟩ := Scan.step_inversion
    (Scan.step (Scan.step (Scan.step ⟨s, .thousands⟩ .thousands) .hundreds) .tens) .units
  -- the fourth step is the last one of the scan
  change _ = _ ++ s.scan.rest at ed
  change s.scan.last = _ at ld
  refine ⟨a ++ (b ++ (c ++ d)), ?_, fun hne => ⟨⟨hne, a, b, c, d, ha, hb, hc, hd, rfl⟩, ?_⟩⟩
  · rw [List.append_assoc, List.append_assoc, List.append_assoc, ← ed, ← ec, ← eb]
    exact ea
  · obtain ⟨i, hi, va, ea⟩ := ha.exists_count
    obtain ⟨j, hj, vb, eb⟩ := hb.exists_count
    obtain ⟨k, hk, vc, ec⟩ := hc.exists_count
    obtain ⟨l, hl, vd, ed⟩ := hd.exists_count
    have hsome : i ≠ 0 ∨ j ≠ 0 ∨ k ≠ 0 ∨ l ≠ 0 := by
      by_contra hzero
      simp only [not_or, not_not] at hzero
      exact hne (by simp [ea.mpr hzero.1, eb.mpr hzero.2.1, ec.mpr hzero.2.2.1, ed.mpr hzero.2.2.2])
    rw [value_digits ha hb hc hd, va, vb, vc, vd, ld, lc, lb, la, ite_self]
    simp only [eb, ec, ed]
    exact Place.isLowest_of_digits hi hj hk hl hsome

/-- A scan stops after a numeral, at a letter that goes on no numeral which begins with it. -/
theorem scan_stuck {s y : Spelling} {b : Letter} (h : s.scan.rest = b :: y) :
    ∃ x, s = x ++ b :: y ∧ x.WellFormed ∧ (∀ z, ¬ WellFormed (x ++ b :: z)) ∧
      s.scan.last.IsLowest x.value := by
  obtain ⟨x, hx, hlast⟩ := s.scan_inversion
  rw [h] at hx
  have hstuck : ∀ z, ¬ WellFormed (x ++ b :: z) := fun z hz => by
    rw [hx] at h
    have hrest : (scan (x ++ b :: z)).rest = b :: z := Scan.rest_foldl_congr z Place.all h
    rw [hz.scan_rest] at hrest
    cases hrest
  have hne : x ≠ [] := by
    rintro rfl
    exact hstuck [] (wellFormed_of_scan (List.cons_ne_nil b []) (by cases b <;> rfl))
  exact ⟨x, hx, (hlast hne).1, hstuck, (hlast hne).2⟩

/-- There is one way only to cut a spelling after a numeral and before a letter that does not go
on. -/
theorem eq_of_stuck {x x' y y' : Spelling} {b b' : Letter} (h : x ++ b :: y = x' ++ b' :: y')
    (hx : x.WellFormed) (hx' : x'.WellFormed) (hstuck : ∀ z, ¬ WellFormed (x ++ b :: z))
    (hstuck' : ∀ z, ¬ WellFormed (x' ++ b' :: z)) : x = x' := by
  rcases List.append_eq_append_iff.mp h with ⟨t, ht, ht'⟩ | ⟨t, ht, ht'⟩
  · cases t with
    | nil => rw [ht, List.append_nil]
    | cons c t =>
      cases ht'
      exact absurd (ht ▸ hx') (hstuck t)
  · cases t with
    | nil => rw [ht, List.append_nil]
    | cons c t =>
      cases ht'
      exact absurd (ht ▸ hx) (hstuck' t)

/-- What a spelling is refused for is where its scan stops. -/
theorem check_eq_error_iff {s : Spelling} {r : Rejection} :
    check s = .error r ↔ (s = [] ∧ r = .empty) ∨ ∃ (x : Spelling) (b : Letter) (y : Spelling)
      (after : Place), s = x ++ b :: y ∧ x.WellFormed ∧ (∀ z, ¬ WellFormed (x ++ b :: z)) ∧
        after.IsLowest x.value ∧ r = .leftover (b :: y) after := by
  constructor
  · intro h
    rw [check] at h
    split at h
    next hnil =>
      cases h
      exact .inl ⟨hnil, rfl⟩
    next =>
      split at h
      next => cases h
      next hrest =>
        cases h
        obtain ⟨b, y, hy⟩ := List.exists_cons_of_ne_nil hrest
        obtain ⟨x, hx, hwell, hstuck, hlast⟩ := scan_stuck hy
        exact .inr ⟨x, b, y, _, hx, hwell, hstuck, hlast, by rw [hy]⟩
  · rintro (⟨rfl, rfl⟩ | ⟨x, b, y, after, rfl, hx, hstuck, hafter, rfl⟩)
    · rfl
    · have hrest : (scan (x ++ b :: y)).rest ≠ [] := fun hrest =>
        hstuck y (wellFormed_of_scan (by simp) hrest)
      obtain ⟨b', y', hy'⟩ := List.exists_cons_of_ne_nil hrest
      obtain ⟨x', hsplit, hx', hstuck', hlast⟩ := scan_stuck hy'
      obtain rfl := eq_of_stuck hsplit hx hx' hstuck hstuck'
      cases List.append_cancel_left hsplit
      rw [check, dif_neg (by simp), dif_neg hrest, hy', hlast.unique hafter]

end Spelling

end Roman
