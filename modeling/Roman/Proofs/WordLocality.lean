import Mathlib.Data.List.TakeWhile
import Roman.Conversion
import Roman.Proofs.Substitution

/-!
# Word by word, and nothing else

A text has one cut into words and gaps in turn (`IsCut`), and a substitution is what it does to the
words of this cut (`WordLocal`): gaps are copied, words are exchanged one by one, and the pieces are
put together in the same order. So a text that is cut between a word and a gap can be rewritten in
two parts, and all that is not part of an exchanged word is kept in order.

What a word is exchanged for is said for the two directions by `TurnsNumerals` and `TurnsDecimals`.

A substitution needs no look back. It can take the longest run from the front again and again and
append what this is exchanged for to its output (`substituteInTurn`); that loses and repeats nothing
(`substituteInTurn_eq`).
-/

namespace Roman

/-! ### The cut of a text -/

/-- Characters are cut into words and gaps in turn, so that no run can be longer than it is. -/
structure IsCut (cs : List Char) (rs : List (List Char)) : Prop where
  /-- The runs make up the text. -/
  flatten_eq : cs = rs.flatten
  /-- Each run is a word or a gap. -/
  isRun : ∀ run ∈ rs, IsRun run
  /-- After a word there is a gap, and after a gap a word. -/
  turns : (rs.map isWord).IsChain (· ≠ ·)

theorem isCut_iff {cs : List Char} {rs : List (List Char)} : IsCut cs rs ↔ runs cs = rs := by
  rw [runs_eq_iff]
  constructor
  · intro h
    exact ⟨h.flatten_eq, h.isRun, h.turns⟩
  · rintro ⟨hflatten, hruns, hturns⟩
    exact ⟨hflatten, hruns, hturns⟩

theorem existsUnique_isCut (cs : List Char) : ∃! rs, IsCut cs rs :=
  ⟨runs cs, isCut_iff.mpr rfl, fun _ h => (isCut_iff.mp h).symm⟩

/-- Between a word and a gap, the runs of a text are those of its two parts. -/
theorem runs_append {cs ds : List Char}
    (h : ∀ a ∈ cs.getLast?, ∀ b ∈ ds.head?, isWordChar a ≠ isWordChar b) :
    runs (cs ++ ds) = runs cs ++ runs ds := by
  rw [runs, List.splitBy_append fun a ha b hb => beq_eq_false_iff_ne.mpr (h a ha b hb)]
  rfl

/-! ### Rewriting a text through its cut -/

/-- A run with its word exchanged, if it is one. -/
def exchangedRun (r : String → String) (run : List Char) : List Char :=
  if isWord run then (r (String.ofList run)).toList else run

/-- Whether a run is kept as it is: it is a gap, or a word that is exchanged for itself. -/
def isKept (r : String → String) (run : List Char) : Bool :=
  !isWord run || r (String.ofList run) = String.ofList run

theorem exchangedRun_of_isKept {r : String → String} {run : List Char} (h : isKept r run = true) :
    exchangedRun r run = run := by
  rw [isKept, Bool.or_eq_true, Bool.not_eq_true', decide_eq_true_eq] at h
  rw [exchangedRun]
  rcases h with hgap | hsame
  · rw [hgap]
    rfl
  · rw [hsame, String.toList_ofList, ite_self]

/-- A way to rewrite texts does to a text what another one does to its words, and nothing else. -/
structure WordLocal (f r : String → String) : Prop where
  /-- The result is put together from the runs of the text, with its words exchanged. -/
  eq_flatten : ∀ (text : String) (rs : List (List Char)), IsCut text.toList rs →
    f text = String.ofList (rs.map (exchangedRun r)).flatten
  /-- Two parts between a word and a gap are rewritten on their own. -/
  append : ∀ left right : String,
    (∀ a ∈ left.toList.getLast?, ∀ b ∈ right.toList.head?, isWordChar a ≠ isWordChar b) →
      f (left ++ right) = f left ++ f right
  /-- What is not part of an exchanged word is kept, in order. -/
  kept : ∀ (text : String) (rs : List (List Char)), IsCut text.toList rs →
    (rs.filter (isKept r)).flatten.Sublist (f text).toList
  /-- The characters between words are the same. -/
  gaps : ∀ text : String,
    (f text).toList.filter (fun c => !isWordChar c) = text.toList.filter fun c => !isWordChar c

theorem substitute_eq_flatten (replacement : String → Option String) {text : String}
    {rs : List (List Char)} (h : IsCut text.toList rs) :
    substitute replacement text =
      String.ofList (rs.map (exchangedRun (exchanged replacement))).flatten := by
  rw [substitute, isCut_iff.mp h]
  congr 2
  exact List.map_congr_left fun run hrun => replaceRun_eq replacement (h.isRun run hrun)

/-- What is kept of some runs stands in order in what the runs are exchanged for. -/
theorem flatten_filter_isKept_sublist (r : String → String) (rs : List (List Char)) :
    (rs.filter (isKept r)).flatten.Sublist (rs.map (exchangedRun r)).flatten := by
  induction rs with
  | nil => exact List.Sublist.refl _
  | cons run rs ih =>
    rw [List.map_cons, List.flatten_cons]
    by_cases hkept : isKept r run = true
    · rw [List.filter_cons_of_pos hkept, List.flatten_cons, exchangedRun_of_isKept hkept]
      exact ih.append_left run
    · rw [List.filter_cons_of_neg hkept]
      exact ih.trans (List.sublist_append_right _ _)

/-- A run has as many characters between words as what it is exchanged for, and the same ones. -/
theorem filter_exchangedRun {replacement : String → Option String} (hkeeps : KeepsWords replacement)
    {run : List Char} (h : IsRun run) :
    (exchangedRun (exchanged replacement) run).filter (fun c => !isWordChar c) =
      run.filter fun c => !isWordChar c := by
  have hrun : exchangedRun (exchanged replacement) run = replaceRun replacement run :=
    (replaceRun_eq replacement h).symm
  obtain ⟨-, hclass, hgap⟩ := isRun_replaceRun hkeeps h
  rw [hrun]
  cases hword : isWord run with
  | false => rw [hgap hword]
  | true =>
    have hnone (cs : List Char) (hcs : isWord cs = true) :
        cs.filter (fun c => !isWordChar c) = [] :=
      List.filter_eq_nil_iff.mpr fun c hc => by simp [List.all_eq_true.mp hcs c hc]
    rw [hnone _ (hclass.trans hword), hnone _ hword]

theorem wordLocal_substitute {replacement : String → Option String}
    (hkeeps : KeepsWords replacement) :
    WordLocal (substitute replacement) (exchanged replacement) where
  eq_flatten text rs h := substitute_eq_flatten replacement h
  append left right h := by
    rw [substitute, String.toList_append, runs_append h, List.map_append, List.flatten_append,
      String.ofList_append]
    rfl
  kept text rs h := by
    rw [substitute_eq_flatten replacement h, String.toList_ofList]
    exact flatten_filter_isKept_sublist _ rs
  gaps text := by
    obtain ⟨rs, hcut, -⟩ := existsUnique_isCut text.toList
    rw [substitute_eq_flatten replacement hcut, String.toList_ofList, hcut.flatten_eq,
      List.filter_flatten, List.filter_flatten, List.map_map]
    congr 1
    exact List.map_congr_left fun run hrun => filter_exchangedRun hkeeps (hcut.isRun run hrun)

/-! ### What words are exchanged for -/

/-- A word that is a numeral is exchanged for its decimal, and no other word. -/
structure TurnsNumerals (r : String → String) : Prop where
  numeral : ∀ (word : String) (m : Numeral), Numeral.parse word = .ok m → r word = toString m.decimal
  other : ∀ word : String, Numeral.accepts word = false → r word = word

/-- A word that is a decimal from 1 to 3999, without a zero in front, is exchanged for its canonical
numeral, and no other word. -/
structure TurnsDecimals (r : String → String) : Prop where
  decimal : ∀ d : Nat, 1 ≤ d → d ≤ 3999 → toNumeral d = .ok (r (toString d))
  other : ∀ word : String, (∀ d : Nat, 1 ≤ d → d ≤ 3999 → word ≠ toString d) → r word = word

theorem turnsNumerals_exchanged : TurnsNumerals (exchanged decimalOfWord?) where
  numeral word m h := by
    have hword : decimalOfWord? word = some (toString m.decimal) :=
      decimalOfWord?_eq_some_iff.mpr ⟨m, Numeral.parse_eq_ok_iff.mp h, rfl⟩
    rw [exchanged, hword, Option.getD_some]
  other word h := by
    obtain ⟨e, he⟩ := Numeral.exists_parse_eq_error h
    rw [exchanged, decimalOfWord?, he]
    rfl

theorem turnsDecimals_exchanged : TurnsDecimals (exchanged numeralOfWord?) where
  decimal d hpos hle := by
    have hword : numeralOfWord? (toString d) = some (Numeral.canonical ⟨d, hpos, hle⟩) :=
      numeralOfWord?_eq_some_iff.mpr ⟨⟨d, hpos, hle⟩, rfl, rfl⟩
    rw [exchanged, hword, Option.getD_some]
    exact toNumeral_eq_ok_iff.mpr ⟨⟨d, hpos, hle⟩, rfl, rfl⟩
  other word h := by
    have hword : numeralOfWord? word = none := by
      refine Option.eq_none_iff_forall_ne_some.mpr fun v hv => ?_
      obtain ⟨m, hm, -⟩ := numeralOfWord?_eq_some_iff.mp hv
      exact h m.decimal m.one_le m.le_max hm
    rw [exchanged, hword, Option.getD_none]

/-! ### Run by run -/

/-- The longest run at the front of a text, with what is left of the text. -/
def nextRun? : List Char → Option (List Char × List Char)
  | [] => none
  | c :: cs =>
    some (c :: cs.takeWhile fun d => isWordChar d == isWordChar c,
      cs.dropWhile fun d => isWordChar d == isWordChar c)

theorem nextRun?_eq_some {cs run rest : List Char} (h : nextRun? cs = some (run, rest)) :
    cs = run ++ rest ∧ IsRun run ∧
      ∀ a ∈ run.getLast?, ∀ b ∈ rest.head?, isWordChar a ≠ isWordChar b := by
  cases cs with
  | nil => cases h
  | cons c cs =>
    cases h
    have hclass : ∀ d ∈ c :: cs.takeWhile (fun d => isWordChar d == isWordChar c),
        isWordChar d = isWordChar c := by
      refine List.forall_mem_cons.mpr ⟨rfl, fun d hd => ?_⟩
      have hlike := List.mem_takeWhile_imp hd
      exact beq_iff_eq.mp hlike
    refine ⟨?_, ⟨List.cons_ne_nil _ _, fun d hd => ?_⟩, fun a ha b hb => ?_⟩
    · rw [List.cons_append, List.takeWhile_append_dropWhile]
    · rw [hclass d hd, isWord_eq (List.cons_ne_nil _ _) hclass]
    · have hhead := List.head?_dropWhile_not (fun d => isWordChar d == isWordChar c) cs
      rw [Option.mem_def.mp hb] at hhead
      rw [hclass a (List.mem_of_getLast? ha)]
      exact (beq_eq_false_iff_ne.mp hhead).symm

theorem length_lt_of_nextRun? {cs run rest : List Char} (h : nextRun? cs = some (run, rest)) :
    rest.length < cs.length := by
  obtain ⟨rfl, hrun, -⟩ := nextRun?_eq_some h
  have hpos := List.length_pos_iff.mpr hrun.ne_nil
  rw [List.length_append]
  omega

/-- The longest run at the front is the first run of the text. -/
theorem runs_of_nextRun? {cs run rest : List Char} (h : nextRun? cs = some (run, rest)) :
    runs cs = run :: runs rest := by
  obtain ⟨rfl, hrun, hboundary⟩ := nextRun?_eq_some h
  have hone : runs run = [run] := List.splitBy_of_isChain hrun.ne_nil (isRun_iff.mp hrun).2
  rw [runs_append hboundary, hone, List.singleton_append]

/-- Takes one run after the other from the front of a text, and appends what it is exchanged for to
the output. -/
def substituteInTurn (replacement : String → Option String) (output : String) (cs : List Char) :
    String :=
  match _h : nextRun? cs with
  | none => output
  | some (run, rest) =>
    substituteInTurn replacement (output ++ String.ofList (replaceRun replacement run)) rest
termination_by cs.length
decreasing_by exact length_lt_of_nextRun? _h

/-- **Run by run, nothing is lost and nothing is repeated.** -/
theorem substituteInTurn_eq (replacement : String → Option String) (output : String)
    (cs : List Char) :
    substituteInTurn replacement output cs =
      output ++ substitute replacement (String.ofList cs) := by
  fun_induction substituteInTurn replacement output cs with
  | case1 output cs h =>
    cases cs with
    | nil => simp [substitute, runs]
    | cons c cs => cases h
  | case2 output cs run rest h ih =>
    rw [ih, substitute, substitute, String.toList_ofList, String.toList_ofList, runs_of_nextRun? h,
      List.map_cons, List.flatten_cons, String.ofList_append, String.append_assoc]

/-- **A substitution is local to words and loses nothing.** Every text has exactly one cut into words
and gaps in turn. A substitution copies the gaps and exchanges the words, each on its own: numerals
for their decimals, or decimals from 1 to 3999, written without a zero in front, for their canonical
numerals. So a text may be rewritten in two parts between a word and a gap, and what is not part of an
exchanged word is kept in order. Taking one run after the other from the front gives the same. -/
theorem substitution_wordLocal :
    (∀ cs : List Char, ∃! rs, IsCut cs rs) ∧
    (TurnsNumerals (exchanged decimalOfWord?) ∧
      WordLocal numeralsToDecimals (exchanged decimalOfWord?)) ∧
    (TurnsDecimals (exchanged numeralOfWord?) ∧
      WordLocal decimalsToNumerals (exchanged numeralOfWord?)) ∧
    ∀ text : String,
      substituteInTurn decimalOfWord? "" text.toList = numeralsToDecimals text ∧
      substituteInTurn numeralOfWord? "" text.toList = decimalsToNumerals text := by
  have hnumerals := wordLocal_substitute keepsWords_decimalOfWord?
  have hdecimals := wordLocal_substitute keepsWords_numeralOfWord?
  refine ⟨existsUnique_isCut, ⟨turnsNumerals_exchanged, hnumerals⟩,
    ⟨turnsDecimals_exchanged, hdecimals⟩, fun text => ⟨?_, ?_⟩⟩
  · rw [substituteInTurn_eq, String.empty_append, String.ofList_toList, numeralsToDecimals]
  · rw [substituteInTurn_eq, String.empty_append, String.ofList_toList, decimalsToNumerals]

/-- A dash ends the first word; behind it stands one word, which is no decimal. -/
theorem substitution_wordLocal_dash :
    numeralsToDecimals ("XIV" ++ "–14é") = numeralsToDecimals "XIV" ++ numeralsToDecimals "–14é" ∧
      ∃ rs, IsCut "XIV–14é".toList rs ∧
        (rs.filter (isKept (exchanged numeralOfWord?))).flatten.Sublist
          (decimalsToNumerals "XIV–14é").toList := by
  obtain ⟨hcut, ⟨-, hnumerals⟩, ⟨-, hdecimals⟩, -⟩ := substitution_wordLocal
  obtain ⟨rs, hrs, -⟩ := hcut "XIV–14é".toList
  have hletter : isWordChar 'V' = true := by decide
  have hdash : isWordChar '–' = false := by decide +kernel
  exact ⟨hnumerals.append _ _ (by simp [hletter, hdash]), rs, hrs, hdecimals.kept _ rs hrs⟩

end Roman
