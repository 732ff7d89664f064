import Mathlib.Algebra.Order.Floor.Div
import Mathlib.Data.Set.Card
import Mathlib.Order.Interval.Finset.Nat
import Roman.Comparison
import Roman.Proofs.Range

/-!
# Uniform draws

A word is multiplied by the number of possible results. The upper half of the product is the
result; a word is rejected if the lower half lies above the zone. On a machine the product has 128
bits and the zone is made by a shift to the left, and nothing of that overflows
(`Draw.resultOf?_eq`).

So the words that give a result `k` are those whose product lies between `k` times the number of all
words and a bound that is the same distance above it for every `k`. The distance is the number of
results times a power of two, hence that power of two is how many of these words there are
(`Draw.ncard_resultOf?`).

A generator gives its words one after the other and then zeros, of which none is rejected.
`Draw.Generator.between` is the draw with the generator in its hands, in words of 64 bits; it is the
draw that has been defined (`Draw.between_eq_run`), and it leaves the generator alone where the bounds
make no sense.
-/

namespace Roman

namespace Draw

/-! ### Products of words -/

/-- The product of a word and the number of possible results, in 128 bits. -/
def product (range word : UInt64) : BitVec 128 :=
  word.toBitVec.setWidth 128 * range.toBitVec.setWidth 128

/-- The upper half of the product. -/
def upperHalf (range word : UInt64) : UInt64 := ⟨(product range word >>> 64).setWidth 64⟩

/-- The lower half of the product. -/
def lowerHalf (range word : UInt64) : UInt64 := ⟨(product range word).setWidth 64⟩

/-- The zone, made by shifting the number of possible results by its leading zeros. -/
def zoneWord (range : UInt64) : UInt64 := (range <<< ⟨range.toBitVec.clz⟩) - 1

/-- Whether a word is accepted: the lower half does not exceed the zone. -/
def Accepts (range word : UInt64) : Prop := lowerHalf range word ≤ zoneWord range

instance (range word : UInt64) : Decidable (Accepts range word) :=
  inferInstanceAs (Decidable (_ ≤ _))

/-- How many words there are for each of so many results. -/
def share (range : Nat) : Nat := 2 ^ (63 - range.log2)

theorem wordCount_eq : wordCount = 2 ^ 64 := rfl

theorem toNat_product (range word : UInt64) :
    (product range word).toNat = word.toNat * range.toNat := by
  have hlt : word.toNat * range.toNat < 2 ^ 64 * 2 ^ 64 :=
    Nat.mul_lt_mul'' word.toNat_lt range.toNat_lt
  have hword : (word.toBitVec.setWidth 128).toNat = word.toNat :=
    BitVec.toNat_setWidth_of_le (by decide)
  have hrange : (range.toBitVec.setWidth 128).toNat = range.toNat :=
    BitVec.toNat_setWidth_of_le (by decide)
  rw [product, BitVec.toNat_mul, hword, hrange, show 2 ^ 128 = 2 ^ 64 * 2 ^ 64 from rfl,
    Nat.mod_eq_of_lt hlt]

theorem toNat_lowerHalf (range word : UInt64) :
    (lowerHalf range word).toNat = word.toNat * range.toNat % wordCount := by
  rw [lowerHalf, ← UInt64.toNat_toBitVec, BitVec.toNat_setWidth, toNat_product, wordCount_eq]

theorem toNat_upperHalf (range word : UInt64) :
    (upperHalf range word).toNat = word.toNat * range.toNat / wordCount := by
  have hlt : word.toNat * range.toNat / 2 ^ 64 < 2 ^ 64 :=
    Nat.div_lt_of_lt_mul (Nat.mul_lt_mul'' word.toNat_lt range.toNat_lt)
  rw [upperHalf, ← UInt64.toNat_toBitVec, BitVec.toNat_setWidth, BitVec.toNat_ushiftRight,
    toNat_product, Nat.shiftRight_eq_div_pow, wordCount_eq, Nat.mod_eq_of_lt hlt]

theorem zone_add_one {range : Nat} (hpos : 0 < range) : zone range + 1 = range * share range :=
  Nat.sub_add_cancel (Nat.mul_pos hpos (Nat.two_pow_pos _))

/-- There are words enough for the shares of all results. -/
theorem mul_share_lt {range : Nat} (hlt : range < wordCount) : range * share range < wordCount := by
  by_cases h0 : range = 0
  · rwa [h0, Nat.zero_mul, ← h0]
  have hlog : range.log2 < 64 := (Nat.log2_lt h0).mpr hlt
  calc range * share range
      < 2 ^ (range.log2 + 1) * share range :=
        Nat.mul_lt_mul_of_pos_right Nat.lt_log2_self (Nat.two_pow_pos _)
    _ = 2 ^ (range.log2 + 1 + (63 - range.log2)) := (Nat.pow_add ..).symm
    _ = wordCount := by rw [wordCount_eq]; congr 1; omega

/-- The leading zeros are the bits above the highest one that is set. -/
theorem toNat_clz {range : UInt64} (h : 0 < range) :
    range.toBitVec.clz.toNat = 63 - range.toNat.log2 := by
  have hnat : range.toNat ≠ 0 := (UInt64.lt_iff_toNat_lt.mp h).ne'
  have hbits : range.toBitVec ≠ 0#64 := fun h0 => hnat (congrArg BitVec.toNat h0)
  have hclz : range.toBitVec.clz.toNat < 64 := BitVec.clz_lt_iff_ne_zero.mpr hbits
  have hle := BitVec.two_pow_sub_clz_le_toNat_of_ne_zero (by decide) hbits
  have hlt := range.toBitVec.toNat_lt_two_pow_sub_clz
  have hlog : range.toNat.log2 = 63 - range.toBitVec.clz.toNat := by
    refine (Nat.log2_eq_iff hnat).mpr ⟨hle, ?_⟩
    rwa [show 63 - range.toBitVec.clz.toNat + 1 = 64 - range.toBitVec.clz.toNat by omega]
  omega

theorem toNat_zoneWord {range : UInt64} (h : 0 < range) :
    (zoneWord range).toNat = zone range.toNat := by
  have hpos : 0 < range.toNat := UInt64.lt_iff_toNat_lt.mp h
  have hclz : (UInt64.ofBitVec range.toBitVec.clz).toNat % 64 = 63 - range.toNat.log2 := by
    rw [← UInt64.toNat_toBitVec, toNat_clz h]
    omega
  have hshift : (range <<< UInt64.ofBitVec range.toBitVec.clz).toNat = zone range.toNat + 1 := by
    rw [UInt64.toNat_shiftLeft, hclz, Nat.shiftLeft_eq, zone_add_one hpos]
    exact Nat.mod_eq_of_lt (mul_share_lt range.toNat_lt)
  have hle : 1 ≤ range <<< UInt64.ofBitVec range.toBitVec.clz := by
    rw [UInt64.le_iff_toNat_le, hshift]
    exact Nat.succ_le_succ (Nat.zero_le _)
  rw [zoneWord, UInt64.toNat_sub_of_le _ _ hle, hshift]
  rfl

/-- The result of a word as it is made from the halves of the product. -/
theorem resultOf?_eq {range : UInt64} (h : 0 < range) (word : UInt64) :
    resultOf? range.toNat word =
      if Accepts range word then some (upperHalf range word).toNat else none := by
  simp only [resultOf?, Accepts, UInt64.le_iff_toNat_le, toNat_lowerHalf, toNat_zoneWord h,
    toNat_upperHalf]

theorem resultOf?_eq_none_iff {range word : UInt64} (h : 0 < range) :
    resultOf? range.toNat word = none ↔ ¬ Accepts range word := by
  rw [resultOf?_eq h, ite_eq_right_iff, imp_iff_not (Option.some_ne_none _)]

theorem accepts_zero (range : UInt64) : Accepts range 0 := by
  rw [Accepts, UInt64.le_iff_toNat_le, toNat_lowerHalf, UInt64.toNat_zero, Nat.zero_mul, Nat.zero_mod]
  exact Nat.zero_le _

/-! ### Equal shares -/

/-- The first word with a result. -/
def firstWord (range k : Nat) : Nat := k * wordCount ⌈/⌉ range

theorem resultOf?_lt {range k : Nat} {word : UInt64} (hpos : 0 < range)
    (h : resultOf? range word = some k) : k < range := by
  rw [resultOf?] at h
  split at h
  next =>
    cases h
    exact Nat.div_lt_of_lt_mul (Nat.mul_lt_mul_of_pos_right word.toNat_lt hpos)
  next => cases h

/-- The products with a result lie at or above the result times the number of all words, and so
far above it as the zone allows. -/
theorem resultOf?_eq_some_iff {range k : Nat} {word : UInt64} (hpos : 0 < range)
    (hlt : range < wordCount) :
    resultOf? range word = some k ↔
      k * wordCount ≤ range * word.toNat ∧
        range * word.toNat < k * wordCount + range * share range := by
  have hzone := zone_add_one hpos
  have hshare := mul_share_lt hlt
  rw [resultOf?, Nat.mul_comm range word.toNat, ← hzone]
  generalize word.toNat * range = p
  rw [wordCount_eq, ← hzone] at *
  constructor
  · intro h
    split at h
    next haccepted =>
      cases h
      omega
    next => cases h
  · rintro ⟨hle, hlt⟩
    have haccepted : p % 2 ^ 64 ≤ zone range := by omega
    have hresult : p / 2 ^ 64 = k := by omega
    exact (if_pos haccepted).trans (congrArg some hresult)

/-- Such products are those of the words that follow the first word with the result, one share of
them. -/
theorem mul_bounds_iff {range : Nat} (hpos : 0 < range) (k n : Nat) :
    (k * wordCount ≤ range * n ∧ range * n < k * wordCount + range * share range) ↔
      n ∈ Finset.Ico (firstWord range k) (firstWord range k + share range) := by
  have hlast : (k * wordCount + range * share range) ⌈/⌉ range = firstWord range k + share range := by
    rw [firstWord, Nat.ceilDiv_eq_add_pred_div, Nat.ceilDiv_eq_add_pred_div,
      ← Nat.add_mul_div_left _ _ hpos]
    congr 1
    omega
  rw [Finset.mem_Ico, ← hlast, firstWord, ceilDiv_le_iff_le_mul hpos, ← Nat.not_le, ← Nat.not_le,
    ceilDiv_le_iff_le_mul hpos]

/-- **Every result has the same number of words.** -/
theorem ncard_resultOf? {range k : Nat} (hk : k < range) (hlt : range < wordCount) :
    {word : UInt64 | resultOf? range word = some k}.ncard = share range := by
  have hpos : 0 < range := Nat.zero_lt_of_lt hk
  have himage : UInt64.toNat '' {word | resultOf? range word = some k} =
      Finset.Ico (firstWord range k) (firstWord range k + share range) := by
    ext n
    simp only [Set.mem_image, Set.mem_ofPred_eq, Finset.mem_coe, resultOf?_eq_some_iff hpos hlt,
      mul_bounds_iff hpos]
    constructor
    · rintro ⟨word, hword, rfl⟩
      exact hword
    · intro hn
      -- the last share does not reach beyond the last word
      have hword : n < wordCount := by
        refine Nat.lt_of_mul_lt_mul_left (a := range) ?_
        calc range * n
            < k * wordCount + range * share range := ((mul_bounds_iff hpos k n).mpr hn).2
          _ ≤ k * wordCount + wordCount := Nat.add_le_add_left (mul_share_lt hlt).le _
          _ = (k + 1) * wordCount := (Nat.succ_mul ..).symm
          _ ≤ range * wordCount := Nat.mul_le_mul_right _ hk
      have htoNat : (UInt64.ofNat n).toNat = n := UInt64.toNat_ofNat_of_lt' hword
      exact ⟨.ofNat n, by rwa [htoNat], htoNat⟩
  calc {word : UInt64 | resultOf? range word = some k}.ncard
      = (UInt64.toNat '' {word | resultOf? range word = some k}).ncard :=
        (Set.ncard_image_of_injective _ fun _ _ => UInt64.toNat_inj.mp).symm
    _ = firstWord range k + share range - firstWord range k := by
        rw [himage, Set.ncard_coe_finset, Nat.card_Ico]
    _ = share range := Nat.add_sub_cancel_left ..

/-! ### Words one after the other -/

/-- Words are rejected up to the one whose result is drawn. -/
theorem below_spec (range : Nat) (words : List UInt64) :
    ∃ i, (below range words).2 = i + 1 ∧
      (∀ j < i, resultOf? range (words.getD j 0) = none) ∧
      resultOf? range (words.getD i 0) = some (below range words).1 := by
  induction words with
  | nil => exact ⟨0, rfl, nofun, resultOf?_zero range⟩
  | cons word words ih =>
    rw [below]
    cases h : resultOf? range word with
    | some k => exact ⟨0, rfl, nofun, h⟩
    | none =>
      obtain ⟨i, hi, hrejected, haccepted⟩ := ih
      refine ⟨i + 1, congrArg (· + 1) hi, fun j hj => ?_, haccepted⟩
      cases j with
      | zero => exact h
      | succ j => exact hrejected j (Nat.lt_of_succ_lt_succ hj)

theorem below_lt {range : Nat} (hpos : 0 < range) (words : List UInt64) :
    (below range words).1 < range := by
  obtain ⟨i, -, -, haccepted⟩ := below_spec range words
  exact resultOf?_lt hpos haccepted

/-- One word is enough if and only if it is not rejected. -/
theorem below_cons_eq_iff {range k : Nat} {word : UInt64} (words : List UInt64) :
    below range (word :: words) = (k, 1) ↔ resultOf? range word = some k := by
  rw [below]
  cases resultOf? range word with
  | some n => simp
  | none =>
    obtain ⟨i, hi, -⟩ := below_spec range words
    simp [hi]

/-- A generator: the words that it has still to give, and how many it has given. -/
structure Generator where
  /-- What it has still to give; zeros follow. -/
  pending : List UInt64
  /-- How many words it has given. -/
  given : Nat

namespace Generator

/-- Gives the next word. -/
def next (g : Generator) : UInt64 × Generator :=
  (g.pending.headD 0, ⟨g.pending.tail, g.given + 1⟩)

/-- A word that is rejected was not one of the zeros at the end. -/
theorem length_next_lt {range : UInt64} {g : Generator} (h : ¬ Accepts range g.next.1) :
    g.next.2.pending.length < g.pending.length := by
  obtain ⟨pending, given⟩ := g
  cases pending with
  | nil => exact absurd (accepts_zero range) h
  | cons word words => exact Nat.lt_succ_self _

/-- Takes words until one is accepted, and gives its result. -/
def draw (range : UInt64) (g : Generator) : UInt64 × Generator :=
  if Accepts range g.next.1 then (upperHalf range g.next.1, g.next.2)
  else g.next.2.draw range
termination_by g.pending.length
decreasing_by exact length_next_lt ‹_›

theorem draw_of_accepts {range : UInt64} {g : Generator} (h : Accepts range g.next.1) :
    g.draw range = (upperHalf range g.next.1, g.next.2) := by
  rw [draw, if_pos h]

theorem draw_of_not_accepts {range : UInt64} {g : Generator} (h : ¬ Accepts range g.next.1) :
    g.draw range = g.next.2.draw range := by
  rw [draw, if_neg h]

/-- What a generator draws is drawn from its words, and it has given so many of them more. -/
theorem draw_eq {range : UInt64} (h : 0 < range) (g : Generator) :
    (g.draw range).1.toNat = (below range.toNat g.pending).1 ∧
    (g.draw range).2.given = g.given + (below range.toNat g.pending).2 := by
  obtain ⟨words, given⟩ := g
  induction words generalizing given with
  | nil =>
    have hzero := resultOf?_eq h 0
    rw [resultOf?_zero, if_pos (accepts_zero range)] at hzero
    rw [draw_of_accepts (g := ⟨[], given⟩) (accepts_zero range)]
    exact ⟨(Option.some.inj hzero).symm, rfl⟩
  | cons word words ih =>
    rw [below, resultOf?_eq h]
    by_cases haccepts : Accepts range word
    · rw [draw_of_accepts (g := ⟨word :: words, given⟩) haccepts, if_pos haccepts]
      exact ⟨rfl, rfl⟩
    · obtain ⟨hresult, hgiven⟩ := ih (given + 1)
      rw [draw_of_not_accepts (g := ⟨word :: words, given⟩) haccepts, if_neg haccepts]
      exact ⟨hresult, hgiven.trans (Nat.succ_add_eq_add_succ ..)⟩

end Generator

/-! ### Bounds -/

/-- Whether a bound has a numeral. -/
def InRange (n : Int64) : Prop := 1 ≤ n ∧ n ≤ 3999

instance (n : Int64) : Decidable (InRange n) := inferInstanceAs (Decidable (_ ∧ _))

/-- Bounds between which a number is drawn. -/
structure GoodBounds (least greatest : Int64) : Prop where
  inRange : InRange least ∧ InRange greatest
  le : least ≤ greatest

/-- What is wrong with bounds. -/
inductive BadBounds (least greatest : Int64) : BoundsError → Prop where
  /-- One of them has no numeral. -/
  | outOfRange (h : ¬ (InRange least ∧ InRange greatest)) :
      BadBounds least greatest (.outOfRange least.toInt greatest.toInt)
  /-- Both have a numeral, but the lower one is above the upper one. -/
  | reversed (hrange : InRange least ∧ InRange greatest) (h : greatest < least) :
      BadBounds least greatest (.reversed least.toInt greatest.toInt)

/-- How many results are possible between two bounds. -/
def resultCount (least greatest : Int64) : UInt64 := (greatest - least + 1).toUInt64

/-- Draws a number between two bounds, both included, from a generator. -/
def Generator.between (least greatest : Int64) (g : Generator) :
    Except ConversionError (String × Int64) × Generator :=
  if ¬ (InRange least ∧ InRange greatest) then
    (.error (.invalidBounds (.outOfRange least.toInt greatest.toInt)), g)
  else if greatest < least then
    (.error (.invalidBounds (.reversed least.toInt greatest.toInt)), g)
  else
    let drawn := g.draw (resultCount least greatest)
    let n := least + drawn.1.toInt64
    ((toNumeral n.toInt).map (·, n), drawn.2)

/-- The draw from a fresh generator with the given words. -/
def Generator.run (least greatest : Int64) (words : List UInt64) : Except ConversionError Draw :=
  let (outcome, g) := between least greatest ⟨words, 0⟩
  outcome.map fun (text, n) => ⟨text, n.toInt, g.given⟩

variable {least greatest : Int64} {cause : BoundsError}

theorem inRange_iff {n : Int64} :
    InRange n ↔ Numeral.lowest ≤ n.toInt ∧ n.toInt ≤ Numeral.highest := by
  rw [InRange, Int64.le_iff_toInt_le, Int64.le_iff_toInt_le]
  rfl

/-- The check of both bounds at once. -/
theorem outOfRange_iff :
    (!(decide (Numeral.lowest ≤ least.toInt) && decide (least.toInt ≤ Numeral.highest)) ||
      !(decide (Numeral.lowest ≤ greatest.toInt) && decide (greatest.toInt ≤ Numeral.highest)))
        = true ↔ ¬ (InRange least ∧ InRange greatest) := by
  rw [inRange_iff, inRange_iff, not_and_or, Bool.or_eq_true, Bool.not_eq_true', Bool.not_eq_true',
    ← Bool.not_eq_true, ← Bool.not_eq_true, Bool.and_eq_true, Bool.and_eq_true]
  simp only [decide_eq_true_iff]

theorem goodBounds_or_badBounds (least greatest : Int64) :
    GoodBounds least greatest ∨ ∃ cause, BadBounds least greatest cause := by
  by_cases hrange : InRange least ∧ InRange greatest
  · by_cases hle : least ≤ greatest
    · exact .inl ⟨hrange, hle⟩
    · exact .inr ⟨_, .reversed hrange (Int64.not_le.mp hle)⟩
  · exact .inr ⟨_, .outOfRange hrange⟩

/-- A word is added to a bound without overflow, if the sum is the number of a numeral. -/
theorem add_toInt64_eq {k : UInt64} {n : Numeral} (h : (n.decimal : Int) = least.toInt + k.toNat) :
    least + k.toInt64 = n.toInt64 := by
  have hk : k.toInt64.toInt = (k.toNat : Int).bmod (2 ^ 64) := BitVec.toInt_eq_toNat_bmod _
  have hmax := n.le_max
  rw [← Int64.toInt_inj, Int64.toInt_add, hk, Int.add_bmod_bmod, ← h, Numeral.toInt64,
    n.toInt_ofNat_decimal]
  exact Int.bmod_eq_of_le (by omega) (by omega)

namespace BadBounds

theorem between_eq (h : BadBounds least greatest cause) (words : List UInt64) :
    between least.toInt greatest.toInt words = .error (.invalidBounds cause) := by
  rw [between]
  cases h with
  | outOfRange h => exact if_pos (outOfRange_iff.mpr h)
  | reversed hrange h =>
    rw [if_neg fun hout => outOfRange_iff.mp hout hrange, if_pos (Int64.lt_iff_toInt_lt.mp h)]

/-- The generator has not been asked for a word. -/
theorem generator_between_eq (h : BadBounds least greatest cause) (g : Generator) :
    g.between least greatest = (.error (.invalidBounds cause), g) := by
  rw [Generator.between]
  cases h with
  | outOfRange h => exact if_pos h
  | reversed hrange h => rw [if_neg (not_not_intro hrange), if_pos h]

end BadBounds

namespace GoodBounds

theorem toInt_bounds (h : GoodBounds least greatest) :
    1 ≤ least.toInt ∧ least.toInt ≤ greatest.toInt ∧ greatest.toInt ≤ 3999 :=
  ⟨(inRange_iff.mp h.inRange.1).1, Int64.le_iff_toInt_le.mp h.le, (inRange_iff.mp h.inRange.2).2⟩

theorem toNat_resultCount (h : GoodBounds least greatest) :
    (resultCount least greatest).toNat = (greatest.toInt - least.toInt + 1).toNat := by
  obtain ⟨hpos, hle, hmax⟩ := h.toInt_bounds
  have hexact : (greatest - least + 1).toInt = greatest.toInt - least.toInt + 1 := by
    rw [Int64.toInt_add, Int64.toInt_sub, Int64.toInt_one, Int.bmod_add_bmod]
    exact Int.bmod_eq_of_le (by omega) (by omega)
  have hnonneg : 0 ≤ greatest - least + 1 := by
    rw [Int64.le_iff_toInt_le, Int64.toInt_zero, hexact]
    omega
  rw [resultCount, Int64.toNat_toUInt64_of_le hnonneg, ← Int64.toNat_toInt, hexact]

theorem resultCount_pos (h : GoodBounds least greatest) : 0 < resultCount least greatest := by
  have hbounds := h.toInt_bounds
  rw [UInt64.lt_iff_toNat_lt, h.toNat_resultCount, UInt64.toNat_zero]
  omega

/-- Every possible result leads to a numeral. -/
theorem exists_numeral (h : GoodBounds least greatest) {k : Nat}
    (hk : k < (resultCount least greatest).toNat) :
    ∃ n : Numeral, (n.decimal : Int) = least.toInt + k ∧ (n.decimal : Int) ≤ greatest.toInt := by
  have hbounds := h.toInt_bounds
  rw [h.toNat_resultCount] at hk
  exact ⟨⟨(least.toInt + k).toNat, by omega, by omega⟩, by dsimp only; omega, by dsimp only; omega⟩

theorem below_lt (h : GoodBounds least greatest) (words : List UInt64) :
    (below (resultCount least greatest).toNat words).1 < (resultCount least greatest).toNat :=
  Draw.below_lt (UInt64.lt_iff_toNat_lt.mp h.resultCount_pos) words

/-- Between good bounds a draw never fails. -/
theorem exists_between_eq (h : GoodBounds least greatest) (words : List UInt64) :
    ∃ n : Numeral,
      (n.decimal : Int) = least.toInt + (below (resultCount least greatest).toNat words).1 ∧
      (n.decimal : Int) ≤ greatest.toInt ∧
      between least.toInt greatest.toInt words =
        .ok ⟨n.canonical, n.decimal, (below (resultCount least greatest).toNat words).2⟩ := by
  obtain ⟨n, hn, hle⟩ := h.exists_numeral (h.below_lt words)
  refine ⟨n, hn, hle, ?_⟩
  rw [between, if_neg fun hout => outOfRange_iff.mp hout h.inRange,
    if_neg (Int.not_lt.mpr (Int64.le_iff_toInt_le.mp h.le)), ← h.toNat_resultCount]
  dsimp only
  rw [← hn, toNumeral_eq_ok_iff.mpr ⟨n, rfl, rfl⟩]
  rfl

/-- Neither does it fail with the generator in its hands. -/
theorem exists_generator_between_eq (h : GoodBounds least greatest) (g : Generator) :
    ∃ n : Numeral,
      (n.decimal : Int) = least.toInt + (g.draw (resultCount least greatest)).1.toNat ∧
      g.between least greatest =
        (.ok (n.canonical, n.toInt64), (g.draw (resultCount least greatest)).2) := by
  have hlt := h.below_lt g.pending
  rw [← (Generator.draw_eq h.resultCount_pos g).1] at hlt
  obtain ⟨n, hn, hle⟩ := h.exists_numeral hlt
  refine ⟨n, hn, ?_⟩
  rw [Generator.between, if_neg (not_not_intro h.inRange), if_neg (Int64.not_lt.mpr h.le)]
  dsimp only
  rw [add_toInt64_eq hn, Numeral.toInt64, n.toInt_ofNat_decimal, toNumeral_eq_ok_iff.mpr ⟨n, rfl, rfl⟩]
  rfl

end GoodBounds

/-- The draw is what a fresh generator draws. -/
theorem between_eq_run (least greatest : Int64) (words : List UInt64) :
    between least.toInt greatest.toInt words = Generator.run least greatest words := by
  rw [Generator.run]
  obtain h | ⟨cause, h⟩ := goodBounds_or_badBounds least greatest
  · obtain ⟨n, hn, -, hbetween⟩ := h.exists_between_eq words
    obtain ⟨m, hm, hgenerator⟩ := h.exists_generator_between_eq ⟨words, 0⟩
    obtain ⟨hresult, hgiven⟩ := Generator.draw_eq h.resultCount_pos ⟨words, 0⟩
    obtain rfl : n = m := Numeral.decimal_inj (Int.ofNat_inj.mp (hn.trans (hresult ▸ hm.symm)))
    rw [hbetween, hgenerator]
    simp only [Except.map, hgiven, Nat.zero_add, Numeral.toInt64, n.toInt_ofNat_decimal]
  · rw [h.between_eq, h.generator_between_eq]
    rfl

/-! ### The draw -/

/-- What a draw from words is: words that are rejected, one that is accepted, and the numeral of
its result. -/
structure IsDrawn (least greatest : Int64) (words : List UInt64) (d : Draw) : Prop where
  /-- At least one word is taken, and at most one zero after the last of them. -/
  taken : 1 ≤ d.words ∧ d.words ≤ words.length + 1
  /-- Every word before the last one taken is rejected. -/
  rejected : ∀ i, i + 1 < d.words → ¬ Accepts (resultCount least greatest) (words.getD i 0)
  /-- The last one is accepted. -/
  accepted : Accepts (resultCount least greatest) (words.getD (d.words - 1) 0)
  /-- Its upper half counts from the lower bound. -/
  decimal : d.decimal =
    least.toInt + (upperHalf (resultCount least greatest) (words.getD (d.words - 1) 0)).toNat
  /-- The number drawn lies between the bounds. -/
  bounds : least.toInt ≤ d.decimal ∧ d.decimal ≤ greatest.toInt
  /-- The text is the canonical form of its numeral. -/
  canonical : ∃ n : Numeral, (n.decimal : Int) = d.decimal ∧ n.canonical = d.numeral
  /-- The text is read as the number again. -/
  readBack : fromNumeral d.numeral = .ok d.decimal

theorem GoodBounds.isDrawn (h : GoodBounds least greatest) {words : List UInt64} {d : Draw}
    (hd : between least.toInt greatest.toInt words = .ok d) : IsDrawn least greatest words d := by
  obtain ⟨n, hn, hle, hbetween⟩ := h.exists_between_eq words
  obtain ⟨i, hi, hrejected, haccepted⟩ := below_spec (resultCount least greatest).toNat words
  obtain rfl := Except.ok.inj (hbetween.symm.trans hd)
  simp only [resultOf?_eq_none_iff h.resultCount_pos] at hrejected
  -- past the last word there are zeros
  have hle_length : i ≤ words.length := by
    by_contra hlt
    refine hrejected words.length (Nat.lt_of_not_le hlt) ?_
    rw [List.getD_eq_default _ _ le_rfl]
    exact accepts_zero _
  rw [resultOf?_eq h.resultCount_pos, Option.ite_none_right_eq_some, Option.some_inj] at haccepted
  constructor
  case taken =>
    rw [hi]
    exact ⟨Nat.le_add_left .., Nat.add_le_add_right hle_length 1⟩
  case rejected =>
    intro j hj
    rw [hi] at hj
    exact hrejected j (Nat.lt_of_succ_lt_succ hj)
  case accepted =>
    rw [hi]
    exact haccepted.1
  case decimal =>
    rw [hi, hn, ← haccepted.2]
    rfl
  case bounds => exact ⟨Int.le.intro _ hn.symm, hle⟩
  case canonical => exact ⟨n, rfl, rfl⟩
  case readBack => exact fromNumeral_eq_ok_iff.mpr ⟨n, rfl, rfl⟩

/-- Between good bounds, the words that give a number at once are those with one result. -/
theorem GoodBounds.between_cons_iff (h : GoodBounds least greatest) {k : Nat} {word : UInt64}
    {words : List UInt64} :
    (∃ text, between least.toInt greatest.toInt (word :: words) = .ok ⟨text, least.toInt + k, 1⟩) ↔
      resultOf? (resultCount least greatest).toNat word = some k := by
  obtain ⟨n, hn, -, hbetween⟩ := h.exists_between_eq (word :: words)
  rw [hbetween, ← below_cons_eq_iff words, Prod.ext_iff]
  simp only [Except.ok.injEq, Draw.mk.injEq, exists_and_right, exists_eq', true_and, hn,
    Int.add_right_inj, Int.ofNat_inj]

/-- **Numbers are drawn with equal chances.** The draw is what a generator with the given words
makes of the bounds. It fails if and only if the bounds make no sense, for the reason there is, and
then the generator has not been asked for a word. Otherwise words are rejected while the lower half
of the product exceeds the zone, the first one that is not rejected gives a number between the bounds
with its canonical form, and every number between the bounds is given by the same number of words. -/
theorem between_uniform (least greatest : Int64) :
    (∀ words : List UInt64,
      between least.toInt greatest.toInt words = Generator.run least greatest words) ∧
    (∀ (words : List UInt64) (e : ConversionError),
      between least.toInt greatest.toInt words = .error e ↔
        ∃ cause, e = .invalidBounds cause ∧ BadBounds least greatest cause) ∧
    (∀ (g : Generator) (cause : BoundsError), BadBounds least greatest cause →
      g.between least greatest = (.error (.invalidBounds cause), g)) ∧
    (∀ (words : List UInt64) (d : Draw), between least.toInt greatest.toInt words = .ok d →
      IsDrawn least greatest words d) ∧
    (GoodBounds least greatest → ∀ n : Int, least.toInt ≤ n → n ≤ greatest.toInt →
      ∀ words : List UInt64,
        {word | ∃ text, between least.toInt greatest.toInt (word :: words) = .ok ⟨text, n, 1⟩}.ncard
          = share (resultCount least greatest).toNat) := by
  refine ⟨between_eq_run least greatest, fun words e => ?_, fun g cause h => h.generator_between_eq g,
    fun words d hd => ?_, fun h n hle hge words => ?_⟩
  · constructor
    · intro he
      obtain h | ⟨cause, h⟩ := goodBounds_or_badBounds least greatest
      · obtain ⟨n, -, -, hbetween⟩ := h.exists_between_eq words
        cases hbetween.symm.trans he
      · exact ⟨cause, Except.error.inj (he.symm.trans (h.between_eq words)), h⟩
    · rintro ⟨cause, rfl, h⟩
      exact h.between_eq words
  · obtain h | ⟨cause, h⟩ := goodBounds_or_badBounds least greatest
    · exact h.isDrawn hd
    · cases (h.between_eq words).symm.trans hd
  · obtain ⟨k, rfl⟩ := Int.le.dest hle
    have hk : k < (resultCount least greatest).toNat := by
      rw [h.toNat_resultCount]
      omega
    simp only [h.between_cons_iff]
    exact ncard_resultOf? hk (resultCount least greatest).toNat_lt

/-- From 1 to 3, the last word of the first third is rejected, and the word in the middle of all
gives the number in the middle. -/
theorem between_uniform_three :
    IsDrawn 1 3 [0x5555555555555555, 0x8000000000000000] ⟨"II", 2, 2⟩ ∧
    {word | ∃ text, between 1 3 [word] = .ok ⟨text, 2, 1⟩}.ncard = 2 ^ 62 ∧
    (∀ g : Generator, g.between 3 1 = (.error (.invalidBounds (.reversed 3 1)), g)) := by
  obtain ⟨-, -, -, hdrawn, hcount⟩ := between_uniform 1 3
  obtain ⟨-, -, hbad, -, -⟩ := between_uniform 3 1
  refine ⟨hdrawn _ _ ?_, ?_, fun g => hbad g _ (.reversed (by decide) (by decide))⟩
  · rfl
  · exact hcount ⟨by decide, by decide⟩ 2 (by decide) (by decide) []

end Draw

end Roman
