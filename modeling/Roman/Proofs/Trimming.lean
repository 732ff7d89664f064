import Roman.Outcome
import Roman.Proofs.Moments
import Roman.Proofs.Parsing

/-!
# Two notions of white space

A line trims its statements before it carries them out, and what it trims is white space. The words
of a statement are separated by blanks, which are only some of the white space. So a statement of its
own and the same statement as a line are the same to the last word exactly if all the white space at
its ends is blank (`words?_trim_iff`); and then they end in the same way (`trimming_iff`). A no-break
space at the end is part of the last word of the one, and missing in that of the other
(`noBreakSpace_last`).
-/

namespace Roman

/-! ### What is cut off -/

/-- The white space that is cut off in front of a text. -/
def leading (cs : List Char) : List Char := cs.takeWhile isWhiteSpace

/-- The white space that is cut off behind a text. -/
def trailing (cs : List Char) : List Char :=
  ((cs.dropWhile isWhiteSpace).reverse.takeWhile isWhiteSpace).reverse

theorem leading_append_trim (cs : List Char) : leading cs ++ (trim cs ++ trailing cs) = cs := by
  rw [leading, trim, trailing, ← List.reverse_append, List.takeWhile_append_dropWhile,
    List.reverse_reverse, List.takeWhile_append_dropWhile]

/-- All the white space that is cut off a text is blank. -/
def CutsBlanks (text : String) : Prop :=
  ∀ c ∈ leading text.toList ++ trailing text.toList, isBlank c = true

/-- A text without the white space at its ends. -/
def trimmed (text : String) : String := String.ofList (trim text.toList)

theorem separator_not_mem_trimmed {text : String} (h : ';' ∉ text.toList) :
    ';' ∉ (trimmed text).toList := by
  rw [trimmed, String.toList_ofList]
  exact fun hmem => h ((trim_sublist _).subset hmem)

/-- If blanks are cut off, the tokens stay. -/
theorem tokens_trimmed {text : String} (h : CutsBlanks text) :
    tokens (trimmed text).toList = tokens text.toList := by
  have hleading : ∀ c ∈ leading text.toList, isBlank c = true := fun c hc =>
    h c (List.mem_append_left _ hc)
  have htrailing : ∀ c ∈ trailing text.toList, isBlank c = true := fun c hc =>
    h c (List.mem_append_right _ hc)
  conv => rhs; rw [← leading_append_trim text.toList]
  rw [tokens_blanks_append hleading, tokens_append_blanks htrailing, trimmed, String.toList_ofList]

/-- If the tokens stay, blanks are cut off: any other white space is part of a word. -/
theorem cutsBlanks_of_tokens {text : String} (hsep : ';' ∉ text.toList)
    (h : tokens (trimmed text).toList = tokens text.toList) : CutsBlanks text := by
  have hfilter : (trim text.toList).filter isWordPart = text.toList.filter isWordPart := by
    rw [← flatMap_chars_tokens, ← flatMap_chars_tokens, ← h, trimmed, String.toList_ofList]
  have hlength := congrArg List.length hfilter
  conv at hlength => rhs; rw [← leading_append_trim text.toList]
  simp only [List.filter_append, List.length_append] at hlength
  have hnone : (leading text.toList ++ trailing text.toList).filter isWordPart = [] := by
    rw [List.filter_append, ← List.length_eq_zero_iff, List.length_append]
    omega
  intro c hc
  have hpart := List.filter_eq_nil_iff.mp hnone c hc
  have hne : c ≠ ';' := by
    rintro rfl
    refine hsep ?_
    rw [← leading_append_trim text.toList, List.mem_append, List.mem_append]
    exact (List.mem_append.mp hc).imp_right .inr
  by_contra hblank
  refine hpart ?_
  rw [isWordPart, isSeparator, decide_eq_false hne, Bool.eq_false_of_not_eq_true hblank]
  rfl

/-- Trimming a statement leaves its words as they are if and only if blanks are cut off. -/
theorem words?_trim_iff {text : String} (h : ';' ∉ text.toList) :
    words? (trimmed text) = words? text ↔ CutsBlanks text := by
  rw [words?_eq_iff (separator_not_mem_trimmed h) h]
  exact ⟨cutsBlanks_of_tokens h, tokens_trimmed⟩

/-! ### A statement as a line -/

/-- A run ends as a single statement does: with the same value or none, with the same error or none,
and with the same store. -/
structure Run.EndsAs (run : Run) (step : Step (Option Value)) : Prop where
  results : run.execution.results =
    match step.outcome with
    | .ok answer => answer.toList
    | .error _ => []
  errors : run.execution.failures.map Failure.error =
    match step.outcome with
    | .ok _ => []
    | .error e => [e]
  store : run.store = step.store

theorem Run.endsAs_ofStatement (statement : String) (s : Store) :
    (ofStatement statement s).EndsAs (executeStatement statement s) := by
  refine ⟨?_, ?_, store_ofStatement statement s⟩
  · rw [execution_ofStatement, Moment.value?, Moment.outcome]
    cases (executeStatement statement s).outcome <;> rfl
  · rw [execution_ofStatement, Moment.failure?, Moment.outcome]
    cases (executeStatement statement s).outcome <;> rfl

/-- A line that is one statement carries out that statement without the white space at its ends. -/
theorem Run.endsAs_trimmed {text : String} (hsep : ';' ∉ text.toList)
    (hblank : ∃ c ∈ text.toList, isWhiteSpace c = false) (s : Store) :
    (ofLine text s).EndsAs (executeStatement (trimmed text) s) := by
  have htrim : trim text.toList ≠ [] := fun hnil => by
    obtain ⟨c, hc, hspace⟩ := hblank
    rw [trim_eq_nil_iff.mp hnil c hc] at hspace
    cases hspace
  have hstatements : statements text = [trimmed text] := by
    have heq := statements_of_not_mem hsep
    rwa [String.ofList_toList, if_neg htrim] at heq
  have hone := endsAs_ofStatement (trimmed text) s
  rw [ofLine, hstatements]
  refine ⟨?_, ?_, hone.store⟩
  · rw [← hone.results]
    exact List.append_nil _
  · rw [← hone.errors]
    exact congrArg _ (List.append_nil _)

/-- How a statement ends and the store it leaves depend on its words only. -/
theorem endsAs_of_words? {run : Run} {statement other : String} (h : words? statement = words? other)
    {s : Store} (hrun : run.EndsAs (executeStatement statement s)) :
    run.EndsAs (executeStatement other s) := by
  have hparse : Command.parse statement = Command.parse other := by
    rw [Command.parse, Command.parse, h]
  rw [executeStatement_eq, hparse] at hrun
  rw [executeStatement_eq]
  cases hcommand : Command.parse other with
  | ok c =>
    rw [hcommand] at hrun
    exact ⟨hrun.results, hrun.errors, hrun.store⟩
  | error e =>
    rw [hcommand] at hrun
    exact hrun

/-- **A statement and the line it makes.** Let a text be neither blank nor cut by a separator. As a
line it carries out the statement without the white space at its ends. This has the same words as the
text itself exactly if all that white space is blank, and only then the two can be the same command.
Then, whatever the store, the line ends as the text does as a statement: with the same value, with no
value or with the same error, and with the same store. -/
theorem trimming_iff (text : String) (hsep : ';' ∉ text.toList)
    (hblank : ∃ c ∈ text.toList, isWhiteSpace c = false) :
    (∀ s : Store, (Run.ofLine text s).EndsAs (executeStatement (trimmed text) s)) ∧
    (words? (trimmed text) = words? text ↔ CutsBlanks text) ∧
    (∀ c : Command, Command.parse (trimmed text) = .ok c →
      (Command.parse text = .ok c ↔ CutsBlanks text)) ∧
    (CutsBlanks text → ∀ s : Store, (Run.ofLine text s).EndsAs (executeStatement text s)) := by
  have hwords : words? (trimmed text) = words? text ↔ CutsBlanks text := words?_trim_iff hsep
  have hrun (s : Store) := Run.endsAs_trimmed hsep hblank s
  refine ⟨hrun, hwords, fun c hc => ?_, fun hcuts s => ?_⟩
  · rw [← hwords]
    constructor
    · intro hc'
      rw [Command.words?_of_parse hc, Command.words?_of_parse hc']
    · intro heq
      rw [← hc, Command.parse, Command.parse, heq]
  · exact endsAs_of_words? (hwords.mpr hcuts) (hrun s)

/-- With a tab, a carriage return and a line feed at its ends, a statement is the line it makes. -/
theorem trimming_iff_blanks :
    ';' ∉ "\tset a X \r\n".toList ∧ (∃ c ∈ "\tset a X \r\n".toList, isWhiteSpace c = false) ∧
      CutsBlanks "\tset a X \r\n" ∧
      (Run.ofLine "\tset a X \r\n" .empty).EndsAs (executeStatement "\tset a X \r\n" .empty) := by
  have hsep : ';' ∉ "\tset a X \r\n".toList := by decide
  have hblank : ∃ c ∈ "\tset a X \r\n".toList, isWhiteSpace c = false := ⟨'a', by decide, by decide⟩
  have hcuts : CutsBlanks "\tset a X \r\n" := by
    have hcut : leading "\tset a X \r\n".toList ++ trailing "\tset a X \r\n".toList =
        ['\t', ' ', '\r', '\n'] := by cbv
    rw [CutsBlanks, hcut]
    simp [isBlank]
  exact ⟨hsep, hblank, hcuts, (trimming_iff _ hsep hblank).2.2.2 hcuts .empty⟩

/-- A no-break space at the end of a statement is cut off if the statement is carried out as a line;
by itself, the statement has it in its last word, which then stands for nothing. -/
theorem noBreakSpace_last :
    ';' ∉ "display X\u00a0".toList ∧ (∃ c ∈ "display X\u00a0".toList, isWhiteSpace c = false) ∧
      (Run.ofLine "display X\u00a0" .empty).execution = ⟨[.text "X"], []⟩ ∧
      (executeStatement "display X\u00a0" .empty).outcome = .error (.unresolved "X\u00a0") ∧
      ¬ (Run.ofLine "display X\u00a0" .empty).EndsAs (executeStatement "display X\u00a0" .empty) := by
  have hline : (Run.ofLine "display X\u00a0" .empty).execution = ⟨[.text "X"], []⟩ := by cbv
  have hstatement : (executeStatement "display X\u00a0" .empty).outcome =
      .error (.unresolved "X\u00a0") := by cbv
  refine ⟨by decide, ⟨'X', by decide, by decide⟩, hline, hstatement, fun h => ?_⟩
  have hresults := h.results
  rw [hline, hstatement] at hresults
  cases hresults

end Roman
