import Roman.Grammar

/-!
# Decoding

A spelling is decoded by cutting. There are six pairs of a smaller letter before a
larger one; in a fixed order, each is looked for, cut out where it stands first, and
counted with its own value. The letters that are left at the end count for
themselves (`Spelling.decode`).

A cut brings two letters together that stood apart, and they may be a pair that
nobody wrote: cutting `XC` out of `CXCM` leaves `CM`. In a well-formed spelling this
does not happen, and what is decoded is the value that is read from left to right
(`Spelling.WellFormed.decode_eq_value`).
-/

namespace Roman

/-- A letter before a larger one, from which it is taken away. -/
structure Pair where
  /-- The letter that is taken away. -/
  small : Letter
  /-- The letter that it is taken away from. -/
  large : Letter
  /-- The number that the two stand for. -/
  value : Nat

/-- The six pairs, in the order in which they are cut out. -/
def Pair.all : List Pair :=
  [⟨.C, .M, 900⟩, ⟨.C, .D, 400⟩, ⟨.X, .C, 90⟩, ⟨.X, .L, 40⟩, ⟨.I, .X, 9⟩, ⟨.I, .V, 4⟩]

namespace Spelling

/-- A spelling without the first occurrence of a pair, if there is one. -/
def cut? (p : Pair) : Spelling → Option Spelling
  | a :: b :: s => if a = p.small ∧ b = p.large then some s else (cut? p (b :: s)).map (a :: ·)
  | _ => none

/-- What the letters of a spelling count if each counts for itself. -/
def total : Spelling → Nat
  | [] => 0
  | a :: s => a.value + total s

/-- Decodes a spelling with the given pairs. -/
def decodeWith : List Pair → Spelling → Nat
  | [], s => s.total
  | p :: ps, s =>
    match cut? p s with
    | some rest => p.value + decodeWith ps rest
    | none => decodeWith ps s

/-- The number that a spelling is decoded to. -/
def decode (s : Spelling) : Nat := decodeWith Pair.all s

/-! ### Letters that count for themselves -/

theorem total_append (s t : Spelling) : total (s ++ t) = total s + total t := by
  induction s with
  | nil => exact (Nat.zero_add _).symm
  | cons a s ih => rw [List.cons_append, total, total, ih, Nat.add_assoc]

/-- Where no letter stands before a larger one, each letter counts for itself. -/
theorem value_eq_total :
    ∀ {s : Spelling}, s.Pairwise (fun a b => b.value ≤ a.value) → value s = total s
  | [], _ => rfl
  | [_], _ => rfl
  | a :: b :: s, h => by
    obtain ⟨ha, hs⟩ := List.pairwise_cons.mp h
    have hab : b.value ≤ a.value := ha b (List.mem_cons_self ..)
    rw [value, if_neg (Nat.not_lt.mpr hab), value_eq_total hs]
    rfl

/-! ### Where a pair is found -/

theorem cut?_pair (p : Pair) (s : Spelling) : cut? p (p.small :: p.large :: s) = some s := by
  rw [cut?, if_pos ⟨rfl, rfl⟩]

/-- The large letter of a pair is not looked for at the front of a spelling. -/
theorem cut?_cons_eq_none {p : Pair} :
    ∀ {s : Spelling} (a : Letter), p.large ∉ s → cut? p (a :: s) = none
  | [], _, _ => rfl
  | b :: s, a, h => by
    rw [List.mem_cons, not_or] at h
    obtain ⟨hb, hs⟩ := h
    rw [cut?, if_neg fun hab => hb hab.2.symm, cut?_cons_eq_none b hs, Option.map_none]

theorem cut?_eq_none {p : Pair} {s : Spelling} (h : p.large ∉ s) : cut? p s = none := by
  cases s with
  | nil => rfl
  | cons a s => exact cut?_cons_eq_none a fun hs => h (List.mem_cons_of_mem a hs)

/-- No pair is found in a part without its small letter, nor across the end of that
part. -/
theorem cut?_append {p : Pair} (s : Spelling) : ∀ {before : Spelling}, p.small ∉ before →
    cut? p (before ++ s) = (cut? p s).map (before ++ ·)
  | [], _ => by simp
  | a :: before, h => by
    rw [List.mem_cons, not_or] at h
    obtain ⟨ha, hbefore⟩ := h
    have ih := cut?_append s hbefore
    rw [List.cons_append]
    cases hrest : before ++ s with
    | nil =>
      obtain ⟨rfl, rfl⟩ := List.append_eq_nil_iff.mp hrest
      rfl
    | cons b rest =>
      rw [cut?, if_neg fun hab => ha hab.1.symm, ← hrest, ih, Option.map_map]
      rfl

/-- A pair that is not found after a part without its small letter is passed over. -/
theorem decodeWith_of_none {p : Pair} {ps : List Pair} {before s : Spelling}
    (hbefore : p.small ∉ before)
    (h : cut? p s = none) : decodeWith (p :: ps) (before ++ s) = decodeWith ps (before ++ s) := by
  rw [decodeWith, cut?_append s hbefore, h, Option.map_none]

/-- A pair that is found after a part without its small letter is cut out there. -/
theorem decodeWith_of_some {p : Pair} {ps : List Pair} {before s rest : Spelling}
    (hbefore : p.small ∉ before)
    (h : cut? p s = some rest) :
    decodeWith (p :: ps) (before ++ s) = p.value + decodeWith ps (before ++ rest) := by
  rw [decodeWith, cut?_append s hbefore, h, Option.map_some]

end Spelling

/-! ### Decoding a digit -/

/-- The pair of a place that stands for nine. -/
def Pair.nine (p : Place) (ten : Letter) : Pair := ⟨p.one, ten, 9 * p.unit⟩

/-- The pair of a place that stands for four. -/
def Pair.four (p : Place) (five : Letter) : Pair := ⟨p.one, five, 4 * p.unit⟩

/-- The pairs come place by place, from the hundreds to the units. -/
theorem Pair.all_eq : all = [nine .hundreds .M, four .hundreds .D, nine .tens .C, four .tens .L,
    nine .units .X, four .units .V] := rfl

namespace Spelling

/-- What the pairs of a place do to a digit of the place, between letters above the
place and letters below it: they cut out a four or a nine, and let any other digit
stand, of which each letter counts for itself. -/
theorem decodeWith_digit {p : Place} {five ten : Letter} (hfive : p.five? = some five)
    (hten : p.ten? = some ten) (ps : List Pair) {before d after : Spelling} (hd : p.Digit d)
    (hbefore : ∀ a ∈ before, p.unit < a.value) (hafter : ∀ a ∈ after, a.value ≤ p.unit) :
    ∃ v rest, value d = v + total rest ∧ (∀ a ∈ rest, p.unit ≤ a.value) ∧
      decodeWith (Pair.nine p ten :: Pair.four p five :: ps) (before ++ (d ++ after)) =
        v + decodeWith ps (before ++ (rest ++ after)) := by
  have hunit := p.unit_pos
  have hvalue₅ := Place.five_value hfive
  have hvalue₁₀ := Place.ten_value hten
  have hone : p.one ∉ before := fun h => absurd (hbefore _ h) (by rw [Place.one_value]; omega)
  have hfive_after : five ∉ after := fun h => absurd (hafter _ h) (by omega)
  have hten_after : ten ∉ after := fun h => absurd (hafter _ h) (by omega)
  have hfive_one : five ≠ p.one := fun h => by rw [h, Place.one_value] at hvalue₅; omega
  have hten_one : ten ≠ p.one := fun h => by rw [h, Place.one_value] at hvalue₁₀; omega
  have hten_five : ten ≠ five := fun h => by rw [h, hvalue₅] at hvalue₁₀; omega
  have hones : ∀ k, ∀ a ∈ List.replicate k p.one, a.value = p.unit := fun k a ha => by
    rw [List.eq_of_mem_replicate ha, Place.one_value]
  cases hd with
  | @ones k hk =>
    have hfive_d : five ∉ List.replicate k p.one ++ after := by
      simp [hfive_after, hfive_one]
    have hten_d : ten ∉ List.replicate k p.one ++ after := by
      simp [hten_after, hten_one]
    refine ⟨0, List.replicate k p.one, ?_, fun a ha => Nat.le_of_eq (hones k a ha).symm, ?_⟩
    · rw [Nat.zero_add, value_eq_total (List.pairwise_replicate.mpr (.inr (Nat.le_refl _)))]
    · rw [decodeWith_of_none hone (cut?_eq_none hten_d),
        decodeWith_of_none hone (cut?_eq_none hfive_d), Nat.zero_add]
  | @fives five' k h hk =>
    obtain rfl : five' = five := Option.some.inj (h.symm.trans hfive)
    have hfive_d : five' ∉ List.replicate k p.one ++ after := by
      simp [hfive_after, hfive_one]
    have hten_d : ten ∉ five' :: List.replicate k p.one ++ after := by
      simp [hten_after, hten_one, hten_five]
    have hdesc : (five' :: List.replicate k p.one).Pairwise fun a b => b.value ≤ a.value :=
      List.pairwise_cons.mpr ⟨fun a ha => by rw [hones k a ha]; omega,
        List.pairwise_replicate.mpr (.inr (Nat.le_refl _))⟩
    refine ⟨0, five' :: List.replicate k p.one, ?_, ?_, ?_⟩
    · rw [Nat.zero_add, value_eq_total hdesc]
    · intro a ha
      rcases List.mem_cons.mp ha with rfl | ha
      · omega
      · exact Nat.le_of_eq (hones k a ha).symm
    · have hcut : cut? (Pair.four p five') (five' :: List.replicate k p.one ++ after) = none :=
        cut?_cons_eq_none five' hfive_d
      rw [decodeWith_of_none hone (cut?_eq_none hten_d), decodeWith_of_none hone hcut, Nat.zero_add]
  | @four five' h =>
    obtain rfl : five' = five := Option.some.inj (h.symm.trans hfive)
    have hten_d : ten ∉ [p.one, five'] ++ after := by
      simp [hten_after, hten_one, hten_five]
    refine ⟨4 * p.unit, [], ?_, by simp, ?_⟩
    · cases p <;> cases h <;> decide
    · have hcut : cut? (Pair.four p five') ([p.one, five'] ++ after) = some after :=
        cut?_pair _ after
      rw [decodeWith_of_none hone (cut?_eq_none hten_d), decodeWith_of_some hone hcut]
      rfl
  | @nine ten' h =>
    obtain rfl : ten' = ten := Option.some.inj (h.symm.trans hten)
    refine ⟨9 * p.unit, [], ?_, by simp, ?_⟩
    · cases p <;> cases h <;> decide
    · have hcut : cut? (Pair.nine p ten') ([p.one, ten'] ++ after) = some after := cut?_pair _ after
      rw [decodeWith_of_some hone hcut, decodeWith_of_none hone (cut?_eq_none hfive_after)]
      rfl

/-! ### Decoding a well-formed spelling -/

/-- A well-formed spelling is decoded to its value. -/
theorem WellFormed.decode_eq_value {s : Spelling} (h : s.WellFormed) : s.decode = s.value := by
  obtain ⟨-, a, b, c, d, ha, hb, hc, hd, rfl⟩ := h
  have ha_ge : ∀ x ∈ a, 1000 ≤ x.value := ha.unit_le
  have hc_le : ∀ x ∈ c, x.value ≤ 100 := hc.le_ten
  have hd_le : ∀ x ∈ d, x.value ≤ 10 := hd.le_ten
  -- Place by place, the digit gives way to what its pairs leave of it.
  have before_b : ∀ x ∈ a, Place.hundreds.unit < x.value := fun x hx =>
    Nat.lt_of_lt_of_le (by decide) (ha_ge x hx)
  have after_b : ∀ x ∈ c ++ d, x.value ≤ Place.hundreds.unit := fun x hx =>
    (List.mem_append.mp hx).elim (hc_le x) fun hx => Nat.le_trans (hd_le x hx) (by decide)
  obtain ⟨v₁, b', hb_value, hb_ge, hb_cut⟩ := decodeWith_digit rfl rfl
    [Pair.nine .tens .C, Pair.four .tens .L, Pair.nine .units .X, Pair.four .units .V]
    hb before_b after_b
  have before_c : ∀ x ∈ a ++ b', Place.tens.unit < x.value := fun x hx =>
    (List.mem_append.mp hx).elim (fun hx => Nat.lt_of_lt_of_le (by decide) (ha_ge x hx))
      fun hx => Nat.lt_of_lt_of_le (by decide) (hb_ge x hx)
  obtain ⟨v₂, c', hc_value, hc_ge, hc_cut⟩ := decodeWith_digit rfl rfl
    [Pair.nine .units .X, Pair.four .units .V] hc before_c hd_le
  have before_d : ∀ x ∈ (a ++ b') ++ c', Place.units.unit < x.value := fun x hx =>
    (List.mem_append.mp hx).elim (fun hx => Nat.lt_trans (by decide) (before_c x hx))
      fun hx => Nat.lt_of_lt_of_le (by decide) (hc_ge x hx)
  have after_d : ∀ x ∈ ([] : Spelling), x.value ≤ Place.units.unit :=
    fun x hx => absurd hx List.not_mem_nil
  obtain ⟨v₃, d', hd_value, -, hd_cut⟩ := decodeWith_digit rfl rfl [] hd before_d after_d
  simp only [List.append_assoc, List.append_nil] at hb_cut hc_cut hd_cut
  have ha_value : value a = total a := by
    cases ha with
    | ones hk => exact value_eq_total (List.pairwise_replicate.mpr (.inr (Nat.le_refl _)))
    | fives h => cases h
    | four h => cases h
    | nine h => cases h
  rw [value_digits ha hb hc hd, decode, Pair.all_eq, hb_cut, hc_cut, hd_cut, decodeWith,
    total_append, total_append, total_append, ha_value, hb_value, hc_value, hd_value]
  omega

end Spelling

end Roman
