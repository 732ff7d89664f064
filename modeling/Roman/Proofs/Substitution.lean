import Mathlib.Data.List.Forall2
import Mathlib.Data.List.SplitBy
import Roman.Proofs.Canonical
import Roman.Text.Substitution

/-!
# Words are exchanged one by one

A text is a sequence of runs, words and gaps in turn (`runs_eq_iff`). What a substitution puts in
place of a word is a word again (`KeepsWords`), so the runs of the result are the runs of the text,
each exchanged on its own (`runs_substitute`), and what two substitutions do one after the other
they do to each word (`substitute_substitute`).

A word is exchanged for a decimal if and only if it is the canonical form of a numeral, and for a
numeral if and only if it is the decimal of one, written without a zero in front. So the two
substitutions undo each other, word by word (`Undoes`), and texts satisfy the laws of words
(`substitution_laws`).
-/

namespace Roman

/-! ### Decimals -/

/-- A digit is the character of the number below ten that it stands for. -/
theorem exists_digitChar {c : Char} (h : c.isDigit = true) :
    ∃ d < 10, c = Nat.digitChar d ∧ c.toNat - '0'.toNat = d := by
  obtain ⟨hlow, hhigh⟩ := Char.isDigit_iff_toNat.mp h
  have hlow' : 48 ≤ c.toNat := hlow
  have hhigh' : c.toNat ≤ 57 := hhigh
  refine ⟨c.toNat - 48, by omega, Char.toNat_inj.mp ?_, rfl⟩
  rw [Nat.toNat_digitChar_of_lt_ten (by omega)]
  omega

/-- Digits after those of a number that is not zero are the digits of the number that they all
stand for. -/
theorem toDigits_append_digits {cs : List Char} :
    ∀ {n : Nat}, 0 < n → (∀ c ∈ cs, c.isDigit = true) →
      Nat.toDigits 10 n ++ cs = Nat.toDigits 10 (Nat.ofDigitChars 10 cs n) := by
  induction cs with
  | nil => simp
  | cons c cs ih =>
    intro n hn hdigits
    obtain ⟨hc, hcs⟩ := List.forall_mem_cons.mp hdigits
    obtain ⟨d, hd, rfl, hsub⟩ := exists_digitChar hc
    calc Nat.toDigits 10 n ++ Nat.digitChar d :: cs
        = (Nat.toDigits 10 n ++ Nat.toDigits 10 d) ++ cs := by
          rw [Nat.toDigits_of_lt_base hd, List.append_assoc]
          rfl
      _ = Nat.toDigits 10 (10 * n + d) ++ cs := by
          rw [Nat.toDigits_append_toDigits (by decide) hn hd]
      _ = Nat.toDigits 10 (Nat.ofDigitChars 10 (Nat.digitChar d :: cs) n) := by
          rw [ih (by omega) hcs, Nat.ofDigitChars_cons, hsub]

/-- Digits that do not begin with zero are the digits of the number that they stand for. -/
theorem toDigits_ofDigitChars {cs : List Char} (hne : cs ≠ []) (hzero : cs.head? ≠ some '0')
    (hdigits : ∀ c ∈ cs, c.isDigit = true) :
    Nat.toDigits 10 (Nat.ofDigitChars 10 cs 0) = cs := by
  cases cs with
  | nil => exact absurd rfl hne
  | cons c cs =>
    obtain ⟨hc, hcs⟩ := List.forall_mem_cons.mp hdigits
    obtain ⟨d, hd, rfl, hsub⟩ := exists_digitChar hc
    have hpos : 0 < d := by
      refine Nat.pos_of_ne_zero ?_
      rintro rfl
      exact hzero rfl
    rw [Nat.ofDigitChars_cons, hsub, Nat.mul_zero, Nat.zero_add, ← toDigits_append_digits hpos hcs,
      Nat.toDigits_of_lt_base hd]
    rfl

/-- The digits of a number that is not zero do not begin with zero. -/
theorem head?_toDigits_ne {n : Nat} (hn : 0 < n) : (Nat.toDigits 10 n).head? ≠ some '0' := by
  induction n using Nat.strongRecOn with
  | ind n ih =>
    by_cases hlt : n < 10
    · rw [Nat.toDigits_of_lt_base hlt, List.head?_cons]
      intro h
      exact absurd (Nat.digitChar_eq_zero.mp (Option.some.inj h)) (by omega)
    · have hdigits : Nat.toDigits 10 (n / 10) ++ Nat.toDigits 10 (n % 10) = Nat.toDigits 10 n := by
        rw [Nat.toDigits_append_toDigits (by decide) (by omega) (by omega)]
        congr 1
        omega
      rw [← hdigits, List.head?_append_of_ne_nil _ Nat.toDigits_ne_nil]
      exact ih (n / 10) (by omega) (by omega)

theorem toList_toString (n : Nat) : (toString n).toList = Nat.toDigits 10 n :=
  Nat.toList_repr

theorem isDigits_toString (n : Nat) : isDigits (toString n) = true := by
  rw [isDigits_iff, ne_eq, ← String.toList_eq_nil_iff, toList_toString]
  exact ⟨Nat.toDigits_ne_nil, fun c hc => Nat.isDigit_of_mem_toDigits (by decide) (by decide) hc⟩

theorem natural?_toString (n : Nat) : natural? (toString n) = some n := by
  rw [natural?, if_pos (isDigits_toString n), ofDigits, toList_toString,
    Nat.ofDigitChars_toDigits (by decide) (by decide)]

/-- A word is read as a number without a zero in front if and only if it is the decimal of that
number, and the number is not zero. -/
theorem natural?_eq_some_iff {word : String} {n : Nat} (hn : 0 < n) :
    (word.toList.head? ≠ some '0' ∧ natural? word = some n) ↔ word = toString n := by
  constructor
  · rintro ⟨hzero, hnatural⟩
    rw [natural?] at hnatural
    split at hnatural
    next hdigits =>
      cases hnatural
      obtain ⟨hne, hall⟩ := isDigits_iff.mp hdigits
      rw [← String.toList_inj, toList_toString, ofDigits,
        toDigits_ofDigitChars (mt String.toList_eq_nil_iff.mp hne) hzero hall]
    next => cases hnatural
  · rintro rfl
    rw [toList_toString]
    exact ⟨head?_toDigits_ne hn, natural?_toString n⟩

/-! ### What words are exchanged for -/

theorem decimalOfWord?_eq_some_iff {word v : String} :
    decimalOfWord? word = some v ↔ ∃ m : Numeral, word = m.canonical ∧ v = toString m.decimal := by
  rw [decimalOfWord?]
  constructor
  · intro h
    split at h
    next m hm =>
      cases h
      exact ⟨m, Numeral.parse_eq_ok_iff.mp hm, rfl⟩
    next => cases h
  · rintro ⟨m, hm, rfl⟩
    rw [Numeral.parse_eq_ok_iff.mpr hm]

theorem numeralOfWord?_eq_some_iff {word v : String} :
    numeralOfWord? word = some v ↔ ∃ m : Numeral, word = toString m.decimal ∧ v = m.canonical := by
  rw [numeralOfWord?]
  constructor
  · intro h
    split at h
    next => cases h
    next hzero =>
      obtain ⟨n, hn, h⟩ := Option.bind_eq_some_iff.mp h
      obtain ⟨m, hm, h⟩ := Option.bind_eq_some_iff.mp h
      cases h
      have hdecimal : m.decimal = n := Int.ofNat_inj.mp (Numeral.ofInt?_eq_some_iff.mp hm)
      refine ⟨m, (natural?_eq_some_iff m.one_le).mp ⟨hzero, ?_⟩, rfl⟩
      rw [hn, hdecimal]
  · rintro ⟨m, rfl, rfl⟩
    obtain ⟨hzero, hnatural⟩ := (natural?_eq_some_iff m.one_le).mpr rfl
    rw [if_neg hzero, hnatural]
    have hm : Numeral.ofInt? (m.decimal : Nat) = some m := Numeral.ofInt?_eq_some_iff.mpr rfl
    rw [Option.bind_eq_bind, Option.bind_some, hm]
    rfl

/-! ### Runs -/

/-- Whether a run is a word: all its characters are word characters. -/
def isWord (run : List Char) : Bool := run.all isWordChar

/-- A run is not empty, and either all its characters are word characters or none is. -/
structure IsRun (run : List Char) : Prop where
  ne_nil : run ≠ []
  class_eq : ∀ c ∈ run, isWordChar c = isWord run

theorem isWord_eq {run : List Char} {word : Bool} (hne : run ≠ [])
    (h : ∀ c ∈ run, isWordChar c = word) : isWord run = word := by
  cases word with
  | true => exact List.all_eq_true.mpr h
  | false =>
    refine List.all_eq_false.mpr ⟨run.head hne, List.head_mem hne, ?_⟩
    simp [h _ (List.head_mem hne)]

/-- A run of characters that are alike is of one class throughout. -/
theorem isRun_iff {run : List Char} :
    IsRun run ↔ run ≠ [] ∧ run.IsChain fun a b => (isWordChar a == isWordChar b) = true := by
  have hchain : (run.IsChain fun a b => (isWordChar a == isWordChar b) = true) ↔
      run.Pairwise fun a b => isWordChar a = isWordChar b := by
    simp only [beq_iff_eq]
    rw [← List.isChain_map (R := (· = ·)), List.isChain_iff_pairwise, List.pairwise_map]
  rw [hchain]
  constructor
  · rintro ⟨hne, hclass⟩
    refine ⟨hne, List.pairwise_of_forall_mem_list fun a ha b hb => ?_⟩
    rw [hclass a ha, hclass b hb]
  · rintro ⟨hne, hpairs⟩
    cases run with
    | nil => exact absurd rfl hne
    | cons c cs =>
      have hclass : ∀ x ∈ c :: cs, isWordChar x = isWordChar c := by
        rintro x (_ | ⟨_, hx⟩)
        · rfl
        · exact ((List.pairwise_cons.mp hpairs).1 x hx).symm
      exact ⟨hne, fun x hx => (hclass x hx).trans (isWord_eq hne hclass).symm⟩

/-- **Words and gaps in turn.** The runs of a text are the one way in which it is made of runs that
are words and gaps in turn. -/
theorem runs_eq_iff {cs : List Char} {rs : List (List Char)} :
    runs cs = rs ↔ cs = rs.flatten ∧ (∀ run ∈ rs, IsRun run) ∧ (rs.map isWord).IsChain (· ≠ ·) := by
  rw [runs, List.splitBy_eq_iff, List.isChain_map]
  refine and_congr_right fun _ => ⟨?_, ?_⟩
  · rintro ⟨hnil, hruns, hturns⟩
    have hrun : ∀ run ∈ rs, IsRun run := fun run h =>
      isRun_iff.mpr ⟨fun he => hnil (he ▸ h), hruns run h⟩
    refine ⟨hrun, hturns.imp_of_mem_imp fun a b ha hb ⟨hne, hne', hturn⟩ => ?_⟩
    rw [(hrun a ha).class_eq _ (List.getLast_mem hne), (hrun b hb).class_eq _ (List.head_mem hne')]
      at hturn
    exact beq_eq_false_iff_ne.mp hturn
  · rintro ⟨hrun, hturns⟩
    refine ⟨fun h => (hrun [] h).ne_nil rfl, fun run h => (isRun_iff.mp (hrun run h)).2, ?_⟩
    refine hturns.imp_of_mem_imp fun a b ha hb hturn => ⟨(hrun a ha).ne_nil, (hrun b hb).ne_nil, ?_⟩
    rw [(hrun a ha).class_eq _ (List.getLast_mem _), (hrun b hb).class_eq _ (List.head_mem _)]
    exact beq_eq_false_iff_ne.mpr hturn

theorem isRun_of_mem_runs {cs run : List Char} (h : run ∈ runs cs) : IsRun run :=
  (runs_eq_iff.mp rfl).2.1 run h

/-! ### Exchanging words -/

/-- What a replacement puts in place of a word is a word. -/
def KeepsWords (replacement : String → Option String) : Prop :=
  ∀ word v, replacement word = some v → v ≠ "" ∧ isWord v.toList = true

/-- The word with its replacement in its place, if there is one. -/
def exchanged (replacement : String → Option String) (word : String) : String :=
  (replacement word).getD word

theorem replaceRun_eq (replacement : String → Option String) {run : List Char} (h : IsRun run) :
    replaceRun replacement run =
      if isWord run then (exchanged replacement (String.ofList run)).toList else run := by
  cases run with
  | nil => exact absurd rfl h.ne_nil
  | cons c cs =>
    rw [replaceRun, h.class_eq c List.mem_cons_self, exchanged]
    congr 1
    cases replacement (String.ofList (c :: cs)) <;> simp

/-- A run that is exchanged stays a run of its class, and a gap stays as it is. -/
theorem isRun_replaceRun {replacement : String → Option String} (hkeeps : KeepsWords replacement)
    {run : List Char} (h : IsRun run) :
    IsRun (replaceRun replacement run) ∧ isWord (replaceRun replacement run) = isWord run ∧
      (isWord run = false → replaceRun replacement run = run) := by
  rw [replaceRun_eq replacement h]
  by_cases hword : isWord run = true
  · rw [if_pos hword, exchanged]
    cases hv : replacement (String.ofList run) with
    | none =>
      rw [Option.getD_none, String.toList_ofList]
      exact ⟨h, rfl, fun _ => rfl⟩
    | some v =>
      obtain ⟨hne, hwords⟩ := hkeeps _ v hv
      rw [Option.getD_some]
      refine ⟨⟨fun hnil => hne (String.toList_eq_nil_iff.mp hnil), fun c hc => ?_⟩,
        hwords.trans hword.symm, fun hgap => ?_⟩
      · rw [hwords, List.all_eq_true.mp hwords c hc]
      · rw [hword] at hgap
        cases hgap
  · rw [if_neg hword]
    exact ⟨h, rfl, fun _ => rfl⟩

/-- The runs of the result are the runs of the text, each exchanged on its own. -/
theorem runs_substitute {replacement : String → Option String} (hkeeps : KeepsWords replacement)
    (text : String) :
    runs (substitute replacement text).toList = (runs text.toList).map (replaceRun replacement) := by
  rw [substitute, String.toList_ofList]
  refine runs_eq_iff.mpr ⟨rfl, ?_, ?_⟩
  · intro run hrun
    obtain ⟨old, hold, rfl⟩ := List.mem_map.mp hrun
    exact (isRun_replaceRun hkeeps (isRun_of_mem_runs hold)).1
  · have hclasses : ((runs text.toList).map (replaceRun replacement)).map isWord =
        (runs text.toList).map isWord := by
      rw [List.map_map]
      exact List.map_congr_left fun run hrun =>
        (isRun_replaceRun hkeeps (isRun_of_mem_runs hrun)).2.1
    rw [hclasses]
    exact (runs_eq_iff.mp rfl).2.2

/-- Two substitutions one after the other are one substitution if that is so for every word. -/
theorem substitute_substitute {f g h : String → Option String} (hkeeps : KeepsWords g)
    (hwords : ∀ word, exchanged f (exchanged g word) = exchanged h word) (text : String) :
    substitute f (substitute g text) = substitute h text := by
  rw [substitute, runs_substitute hkeeps, List.map_map, substitute]
  congr 2
  refine List.map_congr_left fun run hmem => ?_
  have hrun := isRun_of_mem_runs hmem
  obtain ⟨hrun', hclass, -⟩ := isRun_replaceRun hkeeps hrun
  rw [Function.comp_apply, replaceRun_eq f hrun', hclass, replaceRun_eq g hrun, replaceRun_eq h hrun]
  by_cases hword : isWord run = true
  · rw [if_pos hword, if_pos hword, if_pos hword, String.ofList_toList, hwords]
  · rw [if_neg hword, if_neg hword, if_neg hword]

/-! ### The laws of words -/

/-- Two replacements undo each other, and no word has one under both. -/
structure Undoes (f g : String → Option String) : Prop where
  iff : ∀ word v, f word = some v ↔ g v = some word
  apart : ∀ word v, f word = some v → g word = none

namespace Undoes

variable {f g : String → Option String}

theorem symm (h : Undoes f g) : Undoes g f where
  iff word v := (h.iff v word).symm
  apart word v hg := by
    cases hf : f word with
    | none => rfl
    | some u =>
      rw [h.apart word u hf] at hg
      cases hg

/-- What has been exchanged is not exchanged again. -/
theorem exchanged_self (h : Undoes f g) (word : String) :
    exchanged f (exchanged f word) = exchanged f word := by
  cases hf : f word with
  | none => simp [exchanged, hf]
  | some v =>
    have hv : f v = none := h.symm.apart v word ((h.iff word v).mp hf)
    simp [exchanged, hf, hv]

/-- It makes no difference whether a word has been exchanged the other way before. -/
theorem exchanged_exchanged (h : Undoes f g) (word : String) :
    exchanged f (exchanged g word) = exchanged f word := by
  cases hg : g word with
  | none => simp [exchanged, hg]
  | some v =>
    have hv : f v = some word := (h.iff v word).mpr hg
    have hword : f word = none := h.symm.apart word v hg
    simp [exchanged, hg, hv, hword]

end Undoes

/-! ### Numerals and decimals as words -/

theorem isWordChar_of_mem_asciiWordRanges {c : Char} {first last : Nat}
    (hrange : (first, last) ∈ asciiWordRanges) (hfirst : first ≤ c.toNat) (hlast : c.toNat ≤ last) :
    isWordChar c = true := by
  refine List.any_eq_true.mpr ⟨(first, last), ?_, by simp [hfirst, hlast]⟩
  simp only [wordRanges, List.append_assoc]
  exact List.mem_append_left _ hrange

theorem isWordChar_of_isDigit {c : Char} (h : c.isDigit = true) : isWordChar c = true := by
  obtain ⟨hlow, hhigh⟩ := Char.isDigit_iff_toNat.mp h
  have hrange : (0x30, 0x39) ∈ asciiWordRanges := by decide
  exact isWordChar_of_mem_asciiWordRanges hrange hlow hhigh

theorem Letter.isWordChar_char (a : Letter) : isWordChar a.char = true := by
  have hrange : (0x41, 0x5a) ∈ asciiWordRanges := by decide
  exact isWordChar_of_mem_asciiWordRanges hrange (by cases a <;> decide) (by cases a <;> decide)

theorem Letter.isDigit_char (a : Letter) : a.char.isDigit = false := by
  cases a <;> rfl

namespace Numeral

theorem toList_canonical (m : Numeral) : m.canonical.toList = m.spelling.map Letter.char :=
  String.toList_ofList

theorem canonical_ne_empty (m : Numeral) : m.canonical ≠ "" := fun h =>
  (Spelling.wellFormed_spelling m).1 (by simpa [h] using m.toList_canonical.symm)

theorem isWord_canonical (m : Numeral) : isWord m.canonical.toList = true := by
  rw [toList_canonical, isWord, List.all_map, List.all_eq_true]
  exact fun a _ => a.isWordChar_char

/-- A canonical form is written with letters, and no letter is a digit. -/
theorem isDigits_canonical (m : Numeral) : isDigits m.canonical = false := by
  rw [Bool.eq_false_iff]
  intro hdigits
  obtain ⟨a, rest, hspelling⟩ := List.exists_cons_of_ne_nil (Spelling.wellFormed_spelling m).1
  have hdigit : a.char.isDigit = true := by
    refine (isDigits_iff.mp hdigits).2 _ ?_
    rw [toList_canonical, hspelling, List.map_cons]
    exact List.mem_cons_self
  rw [a.isDigit_char] at hdigit
  cases hdigit

/-- No canonical form is a decimal. -/
theorem canonical_ne_toString (m : Numeral) (n : Nat) : m.canonical ≠ toString n := by
  intro h
  have hdigits := m.isDigits_canonical
  rw [h, isDigits_toString] at hdigits
  cases hdigits

end Numeral

theorem keepsWords_decimalOfWord? : KeepsWords decimalOfWord? := by
  intro word v h
  obtain ⟨m, -, rfl⟩ := decimalOfWord?_eq_some_iff.mp h
  refine ⟨fun hempty => ?_, ?_⟩
  · have hdigits := toList_toString m.decimal
    rw [hempty] at hdigits
    exact Nat.toDigits_ne_nil hdigits.symm
  · rw [toList_toString, isWord, List.all_eq_true]
    exact fun c hc => isWordChar_of_isDigit
      (Nat.isDigit_of_mem_toDigits (by decide) (by decide) hc)

theorem keepsWords_numeralOfWord? : KeepsWords numeralOfWord? := by
  intro word v h
  obtain ⟨m, -, rfl⟩ := numeralOfWord?_eq_some_iff.mp h
  exact ⟨m.canonical_ne_empty, m.isWord_canonical⟩

theorem undoes_words : Undoes decimalOfWord? numeralOfWord? where
  iff word v := by
    rw [decimalOfWord?_eq_some_iff, numeralOfWord?_eq_some_iff]
    exact exists_congr fun m => and_comm
  apart word v h := by
    obtain ⟨m, rfl, -⟩ := decimalOfWord?_eq_some_iff.mp h
    refine Option.eq_none_iff_forall_ne_some.mpr fun u hu => ?_
    obtain ⟨k, hk, -⟩ := numeralOfWord?_eq_some_iff.mp hu
    exact m.canonical_ne_toString k.decimal hk

/-! ### The laws of texts -/

/-- Two texts have the same number of runs, each word stands where there was a word, and the gaps
are the same. -/
def SameRuns (text other : String) : Prop :=
  List.Forall₂ (fun run run' => isWord run' = isWord run ∧ (isWord run = false → run' = run))
    (runs text.toList) (runs other.toList)

theorem sameRuns_substitute {replacement : String → Option String}
    (hkeeps : KeepsWords replacement) (text : String) :
    SameRuns text (substitute replacement text) := by
  rw [SameRuns, runs_substitute hkeeps, List.forall₂_map_right_iff, List.forall₂_same]
  exact fun run hrun => (isRun_replaceRun hkeeps (isRun_of_mem_runs hrun)).2

/-- **The two substitutions undo each other.** A second pass in the same direction changes nothing,
and a pass is not changed by one in the other direction before it. A word is exchanged for a
decimal if and only if that is exchanged for the word. The runs of a text are the one way in which
it is made of words and gaps in turn, and no pass merges, splits, adds or drops a word, or changes a
gap. -/
theorem substitution_laws :
    (∀ text, numeralsToDecimals (numeralsToDecimals text) = numeralsToDecimals text) ∧
    (∀ text, decimalsToNumerals (decimalsToNumerals text) = decimalsToNumerals text) ∧
    (∀ text, numeralsToDecimals (decimalsToNumerals text) = numeralsToDecimals text) ∧
    (∀ text, decimalsToNumerals (numeralsToDecimals text) = decimalsToNumerals text) ∧
    (∀ word v, decimalOfWord? word = some v ↔ numeralOfWord? v = some word) ∧
    (∀ cs rs, runs cs = rs ↔
      cs = rs.flatten ∧ (∀ run ∈ rs, IsRun run) ∧ (rs.map isWord).IsChain (· ≠ ·)) ∧
    (∀ text, SameRuns text (numeralsToDecimals text) ∧ SameRuns text (decimalsToNumerals text)) := by
  have hd := keepsWords_decimalOfWord?
  have hn := keepsWords_numeralOfWord?
  have hundoes := undoes_words
  exact ⟨substitute_substitute hd hundoes.exchanged_self,
    substitute_substitute hn hundoes.symm.exchanged_self,
    substitute_substitute hn hundoes.exchanged_exchanged,
    substitute_substitute hd hundoes.symm.exchanged_exchanged,
    hundoes.iff, fun cs rs => runs_eq_iff,
    fun text => ⟨sameRuns_substitute hd text, sameRuns_substitute hn text⟩⟩

example : numeralsToDecimals "MIX and 007, éX" = "1009 and 007, éX" := by decide +kernel

/-- After the dash stands one word, which is no decimal; the word after it is one. -/
theorem substitution_laws_accent :
    runs "XIV–14é 9".toList = ["XIV".toList, "–".toList, "14é".toList, " ".toList, "9".toList] ∧
      numeralsToDecimals "XIV–14é 9" = "14–14é 9" ∧
      decimalsToNumerals (numeralsToDecimals "XIV–14é 9") = decimalsToNumerals "XIV–14é 9" ∧
      decimalsToNumerals "XIV–14é 9" = "XIV–14é IX" := by
  obtain ⟨-, -, -, hback, -, hruns, -⟩ := substitution_laws
  refine ⟨(hruns _ _).mpr ⟨by decide, fun run hrun => isRun_iff.mpr ?_, by decide +kernel⟩,
    by decide +kernel, hback _, by decide +kernel⟩
  obtain rfl | rfl | rfl | rfl | rfl : run = "XIV".toList ∨ run = "–".toList ∨ run = "14é".toList ∨
      run = " ".toList ∨ run = "9".toList := by
    simpa using hrun
  all_goals decide +kernel

end Roman
