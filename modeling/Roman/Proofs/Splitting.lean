import Mathlib.Data.List.DropRight
import Roman.Script.Token
import Roman.Text.Lines

/-!
# Cutting texts into statements

A line is cut at its separators, a script at its line feeds, and what is blank is dropped.
Everything here follows from one equation, that statements split at a separator
(`statements_append_separator`). So a script has the statements of the line in which a
separator stands for each line feed (`statements_map_separator`): the carriage return that
belongs to the end of a line is white space, and is cut off anyway.

Statements are trimmed, not empty and without separators (`IsStatement`), and such texts,
with separators between them, are the statements of the line they make
(`statements_intercalate`).
-/

namespace Roman

/-! ### White space at the ends -/

/-- Nothing is left of a text if and only if it is blank. -/
theorem trim_eq_nil_iff {cs : List Char} : trim cs = [] ↔ ∀ c ∈ cs, isWhiteSpace c = true := by
  rw [trim, List.reverse_eq_nil_iff, List.dropWhile_eq_nil_iff]
  constructor
  · intro h c hc
    by_cases hdrop : cs.dropWhile isWhiteSpace = []
    · exact List.dropWhile_eq_nil_iff.mp hdrop c hc
    · have hhead := List.head_dropWhile_not isWhiteSpace hdrop
      rw [h _ (List.mem_reverse.mpr (List.head_mem hdrop))] at hhead
      cases hhead
  · intro h c hc
    exact h c ((List.dropWhile_sublist _).subset (List.mem_reverse.mp hc))

theorem trim_sublist (cs : List Char) : (trim cs).Sublist cs := by
  have h : ((cs.dropWhile isWhiteSpace).reverse.dropWhile isWhiteSpace).Sublist
      (cs.dropWhile isWhiteSpace).reverse := List.dropWhile_sublist _
  exact (List.reverse_sublist.mp (by rwa [trim, List.reverse_reverse])).trans
    (List.dropWhile_sublist _)

/-- White space at the end of a text is cut off. -/
theorem trim_append_singleton (cs : List Char) {c : Char} (hc : isWhiteSpace c = true) :
    trim (cs ++ [c]) = trim cs := by
  rw [trim, trim, List.dropWhile_append]
  split
  next h =>
    have hdrop : cs.dropWhile isWhiteSpace = [] := List.isEmpty_iff.mp h
    rw [hdrop]
    simp [hc]
  next => simp [hc]

/-- What is trimmed stays as it is. -/
theorem trim_trim (cs : List Char) : trim (trim cs) = trim cs := by
  have hfront : (trim cs).dropWhile isWhiteSpace = trim cs := by
    cases ht : trim cs with
    | nil => rfl
    | cons c rest =>
      have hpre : trim cs <+: cs.dropWhile isWhiteSpace := by
        rw [trim, ← List.reverse_suffix, List.reverse_reverse]
        exact List.dropWhile_suffix _
      obtain ⟨after, hafter⟩ := hpre
      rw [ht, List.cons_append] at hafter
      have hne : cs.dropWhile isWhiteSpace ≠ [] := by simp [← hafter]
      have hc : isWhiteSpace c = false := by
        have := List.head_dropWhile_not isWhiteSpace hne
        simpa [← hafter] using this
      exact List.dropWhile_cons_of_neg (by simp [hc])
  rw [trim, hfront, trim, List.reverse_reverse, List.dropWhile_idempotent]

/-! ### Cutting at a character -/

/-- What holds of texts without a character, and of two texts with the character between
them if it holds of both, holds of every text. -/
theorem separator_induction (sep : Char) {P : List Char → Prop} (piece : ∀ cs, sep ∉ cs → P cs)
    (join : ∀ cs ds, P cs → P ds → P (cs ++ sep :: ds)) (cs : List Char) : P cs := by
  by_cases h : sep ∈ cs
  · obtain ⟨before, after, hcs⟩ := List.append_of_mem h
    rw [hcs]
    exact join before after (separator_induction sep piece join before)
      (separator_induction sep piece join after)
  · exact piece cs h
termination_by cs.length
decreasing_by all_goals simp only [hcs, List.length_append, List.length_cons]; omega

/-- No piece of a text contains the character at which it is cut. -/
theorem not_mem_of_mem_splitOn {sep : Char} {cs : List Char} :
    ∀ {piece : List Char}, piece ∈ cs.splitOn sep → sep ∉ piece := by
  induction cs using separator_induction sep with
  | piece cs h =>
    intro piece hpiece
    rw [List.splitOn_eq_singleton h, List.mem_singleton] at hpiece
    rwa [hpiece]
  | join cs ds ihcs ihds =>
    intro piece hpiece
    rw [List.splitOn_append_cons_self, List.mem_append] at hpiece
    rcases hpiece with hpiece | hpiece
    · exact ihcs hpiece
    · exact ihds hpiece

/-- A piece of a text has no characters that the text does not have. -/
theorem subset_of_mem_splitOn {sep : Char} {cs : List Char} :
    ∀ {piece : List Char}, piece ∈ cs.splitOn sep → piece ⊆ cs := by
  induction cs using separator_induction sep with
  | piece cs h =>
    intro piece hpiece
    rw [List.splitOn_eq_singleton h, List.mem_singleton] at hpiece
    exact hpiece ▸ List.Subset.refl cs
  | join cs ds ihcs ihds =>
    intro piece hpiece
    rw [List.splitOn_append_cons_self, List.mem_append] at hpiece
    rcases hpiece with hpiece | hpiece
    · exact List.subset_append_of_subset_left _ (ihcs hpiece)
    · exact List.subset_append_of_subset_right _ (List.subset_cons_of_subset _ (ihds hpiece))

/-! ### Statements of a line -/

/-- **Statements split at a separator.** -/
theorem statements_append_separator (cs ds : List Char) :
    statements (String.ofList (cs ++ ';' :: ds)) =
      statements (String.ofList cs) ++ statements (String.ofList ds) := by
  simp only [statements, String.toList_ofList, List.splitOn_append_cons_self, List.map_append,
    List.filter_append]

/-- A line without separators is one statement, or none if it is blank. -/
theorem statements_of_not_mem {cs : List Char} (h : ';' ∉ cs) :
    statements (String.ofList cs) = if trim cs = [] then [] else [String.ofList (trim cs)] := by
  rw [statements, String.toList_ofList, List.splitOn_eq_singleton h]
  split
  next hblank => simp [hblank]
  next hblank => simp [hblank]

/-- White space at the end of a line changes no statement. -/
theorem statements_append_singleton {c : Char} (hc : isWhiteSpace c = true) (cs : List Char) :
    statements (String.ofList (cs ++ [c])) = statements (String.ofList cs) := by
  induction cs using separator_induction ';' with
  | piece cs h =>
    have hne : c ≠ ';' := by
      rintro rfl
      exact absurd hc (by decide)
    have happ : ';' ∉ cs ++ [c] := by simp [h, hne.symm]
    rw [statements_of_not_mem happ, statements_of_not_mem h, trim_append_singleton cs hc]
  | join cs ds _ ih =>
    rw [List.append_assoc, List.cons_append, statements_append_separator,
      statements_append_separator, ih]

theorem statements_dropReturn (cs : List Char) :
    statements (String.ofList (dropReturn cs)) = statements (String.ofList cs) := by
  rw [dropReturn]
  split
  next h =>
    obtain ⟨before, rfl⟩ := List.getLast?_eq_some_iff.mp h
    rw [List.dropLast_concat, statements_append_singleton (by decide)]
  next => rfl

/-- A line has a statement for each piece that is not blank. -/
theorem length_statements (line : String) :
    (statements line).length =
      (line.toList.splitOn ';').countP fun piece => piece.any fun c => !isWhiteSpace c := by
  rw [statements, List.length_map, List.filter_map, List.length_map, ← List.countP_eq_length_filter]
  congr 1
  funext piece
  rw [Function.comp_apply, Bool.eq_iff_iff, decide_eq_true_iff, List.any_eq_true, ne_eq, trim_eq_nil_iff]
  simp

/-! ### Statements of a script -/

/-- A line feed or a separator, a line is cut at it all the same. -/
theorem statements_map_separator (cs : List Char) :
    statements (String.ofList (cs.map fun c => if c = '\n' then ';' else c)) =
      (cs.splitOn '\n').flatMap fun piece => statements (String.ofList piece) := by
  induction cs using separator_induction '\n' with
  | piece cs h =>
    have hmap : cs.map (fun c => if c = '\n' then ';' else c) = cs := by
      refine (List.map_congr_left fun c hc => ?_).trans (List.map_id cs)
      refine if_neg ?_
      rintro rfl
      exact h hc
    rw [hmap, List.splitOn_eq_singleton h, List.flatMap_singleton]
  | join cs ds ihcs ihds =>
    rw [List.map_append, List.map_cons, if_pos rfl, statements_append_separator, ihcs, ihds,
      List.splitOn_append_cons_self, List.flatMap_append]

/-- The lines of a script have the statements that its pieces between line feeds have. -/
theorem flatMap_statements_lines (source : String) :
    (lines source).flatMap statements =
      (source.toList.splitOn '\n').flatMap fun piece => statements (String.ofList piece) := by
  have hpieces := List.splitOn_ne_nil '\n' source.toList
  rw [lines, List.flatMap_map, linesOfChars, List.flatMap_append, List.flatMap_map]
  simp only [statements_dropReturn]
  conv => rhs; rw [← List.dropLast_concat_getLast hpieces, List.flatMap_append]
  rw [List.getLastD_eq_getLast?, List.getLast?_eq_some_getLast hpieces, Option.getD_some]
  by_cases hlast : (source.toList.splitOn '\n').getLast hpieces = []
  · have hnil : statements (String.ofList []) = [] := statements_of_not_mem List.not_mem_nil
    simp [hlast, hnil]
  · simp [hlast]

/-- Two lines with a separator between them have the statements of both. -/
theorem statements_append (line next : String) :
    statements (line ++ ";" ++ next) = statements line ++ statements next := by
  have htext : line ++ ";" ++ next = String.ofList (line.toList ++ ';' :: next.toList) := by
    rw [← String.toList_inj]
    simp
  rw [htext, statements_append_separator, String.ofList_toList, String.ofList_toList]

/-- A script has the statements of the line in which a separator stands for each line
feed. -/
theorem statements_map (source : String) :
    statements (source.map fun c => if c = '\n' then ';' else c) =
      (lines source).flatMap statements := by
  rw [flatMap_statements_lines, ← statements_map_separator, ← String.toList_map,
    String.ofList_toList]

/-! ### Texts that are statements -/

/-- What is to be said of a text that it is a statement of a line: it is not empty, it is
trimmed, and there is no separator in it. -/
structure IsStatement (text : String) : Prop where
  ne_empty : text ≠ ""
  trim_eq : trim text.toList = text.toList
  not_mem : ';' ∉ text.toList

theorem isStatement_of_mem {line text : String} (h : text ∈ statements line) : IsStatement text := by
  simp only [statements, List.mem_map, List.mem_filter, decide_eq_true_eq] at h
  obtain ⟨_, ⟨⟨piece, hpiece, rfl⟩, hne⟩, rfl⟩ := h
  refine ⟨fun h => hne (String.ofList_eq_empty_iff.mp h), ?_, ?_⟩
  · rw [String.toList_ofList, trim_trim]
  · rw [String.toList_ofList]
    exact fun h => not_mem_of_mem_splitOn hpiece ((trim_sublist piece).subset h)

/-- A statement of a line has no characters that the line does not have. -/
theorem subset_of_mem_statements {line text : String} (h : text ∈ statements line) :
    text.toList ⊆ line.toList := by
  simp only [statements, List.mem_map, List.mem_filter] at h
  obtain ⟨_, ⟨⟨piece, hpiece, rfl⟩, -⟩, rfl⟩ := h
  rw [String.toList_ofList]
  exact List.Subset.trans (trim_sublist piece).subset (subset_of_mem_splitOn hpiece)

/-- There is no line feed in a statement of a script. -/
theorem lineFeed_not_mem_of_mem_lines {source text : String}
    (h : text ∈ (lines source).flatMap statements) : '\n' ∉ text.toList := by
  rw [flatMap_statements_lines, List.mem_flatMap] at h
  obtain ⟨piece, hpiece, htext⟩ := h
  intro hmem
  have hsubset := subset_of_mem_statements htext hmem
  rw [String.toList_ofList] at hsubset
  exact not_mem_of_mem_splitOn hpiece hsubset

theorem statements_of_isStatement {text : String} (h : IsStatement text) :
    statements text = [text] := by
  have hblank : text.toList ≠ [] := fun hnil => h.ne_empty (String.toList_eq_nil_iff.mp hnil)
  have heq := statements_of_not_mem h.not_mem
  rwa [h.trim_eq, if_neg hblank, String.ofList_toList] at heq

/-- Statements with separators between them make the line that has these statements. -/
theorem statements_intercalate {texts : List String} (h : ∀ text ∈ texts, IsStatement text) :
    statements (";".intercalate texts) = texts := by
  have hlist : ";".intercalate texts = String.ofList ([';'].intercalate (texts.map String.toList)) := by
    rw [← String.ofList_toList (s := ";".intercalate texts), String.toList_intercalate]
    rfl
  rw [hlist]
  clear hlist
  induction texts with
  | nil => exact statements_of_not_mem List.not_mem_nil
  | cons text rest ih =>
    have htext := statements_of_isStatement (h text List.mem_cons_self)
    have hrest := ih fun other hother => h other (List.mem_cons_of_mem _ hother)
    cases rest with
    | nil => simpa using htext
    | cons next rest =>
      have hcons : [';'].intercalate ((text :: next :: rest).map String.toList) =
          text.toList ++ ';' :: [';'].intercalate ((next :: rest).map String.toList) := by simp
      rw [hcons, statements_append_separator, hrest, String.ofList_toList, htext]
      rfl

end Roman
