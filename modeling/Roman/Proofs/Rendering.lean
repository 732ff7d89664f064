import Mathlib.Data.List.Forall2
import Roman.Proofs.Splitting
import Roman.Proofs.Words

/-!
# Lines that are written

Statements are written as a line: words with blanks between them (`RendersWords`), white space
around each statement, separators between the statements, and blank pieces wherever one likes
(`RendersLine`). Reading the line gives the statements back, and the words of each
(`lexing_undoes_rendering`).

Words may have any characters but white space and separators (`IsPlainWord`). To be the word of a
token less is enough, as only blanks end a word (`IsTokenWord`); other white space is kept out
because it would be trimmed at the ends of a statement. Every text is made from separators, blanks
and words (`token_induction`).

A line can also be cut in one pass over its tokens, at the places where separators stand
(`piecesFrom`). This gives the same pieces (`piecesFrom_eq`).
-/

namespace Roman

/-! ### Words -/

/-- What can be the word of a token: it is not empty, and all its characters are part of words. -/
structure IsTokenWord (word : String) : Prop where
  ne_empty : word ≠ ""
  isWordPart_eq : ∀ c ∈ word.toList, isWordPart c = true

/-- A word that may be written anywhere in a line. -/
structure IsPlainWord (word : String) : Prop where
  ne_empty : word ≠ ""
  /-- There is no white space in it. -/
  isWhiteSpace_eq : ∀ c ∈ word.toList, isWhiteSpace c = false
  /-- There is no separator in it. -/
  isSeparator_eq : ∀ c ∈ word.toList, isSeparator c = false

theorem isWordPart_iff {c : Char} :
    isWordPart c = true ↔ isBlank c = false ∧ isSeparator c = false := by
  rw [isWordPart, Bool.and_eq_true, Bool.not_eq_true', Bool.not_eq_true']

theorem IsTokenWord.toList_ne_nil {word : String} (h : IsTokenWord word) : word.toList ≠ [] :=
  fun hnil => h.ne_empty (String.toList_eq_nil_iff.mp hnil)

theorem IsTokenWord.not_mem {word : String} (h : IsTokenWord word) {c : Char}
    (hc : isWordPart c = false) : c ∉ word.toList := by
  intro hmem
  rw [h.isWordPart_eq c hmem] at hc
  cases hc

theorem IsPlainWord.isTokenWord {word : String} (h : IsPlainWord word) : IsTokenWord word where
  ne_empty := h.ne_empty
  isWordPart_eq c hc := by
    refine isWordPart_iff.mpr ⟨?_, h.isSeparator_eq c hc⟩
    rw [← Bool.not_eq_true]
    intro hblank
    have hspace := h.isWhiteSpace_eq c hc
    rw [isWhiteSpace_of_isBlank hblank] at hspace
    cases hspace

/-- A word by itself is its only token. -/
theorem tokens_toList {word : String} (h : IsTokenWord word) : tokens word.toList = [.word word] := by
  have hparts := h.isWordPart_eq
  cases hword : word.toList with
  | nil => exact absurd hword h.toList_ne_nil
  | cons c rest =>
    rw [hword, List.forall_mem_cons] at hparts
    obtain ⟨hc, hrest⟩ := hparts
    obtain ⟨hblank, hseparator⟩ := isWordPart_iff.mp hc
    have hdrop : rest.dropWhile isWordPart = [] := List.dropWhile_eq_nil_iff.mpr hrest
    have htake : rest.takeWhile isWordPart = rest := by
      have hsplit := List.takeWhile_append_dropWhile (p := isWordPart) (l := rest)
      rwa [hdrop, List.append_nil] at hsplit
    rw [tokens, if_neg (by simp [hseparator]), if_neg (by simp [hblank]), htake, hdrop, tokens, ← hword,
      String.ofList_toList]

/-- A word ends where a character is not part of words. -/
theorem tokens_word_append {word : String} (h : IsTokenWord word) {cs : List Char}
    (hcs : ∀ c ∈ cs.head?, isWordPart c = false) :
    tokens (word.toList ++ cs) = .word word :: tokens cs := by
  rw [tokens_append hcs, tokens_toList h, List.singleton_append]

/-- The longest word at the front of a text is one. -/
theorem isTokenWord_takeWhile {c : Char} (hsep : ¬ isSeparator c = true)
    (hblank : ¬ isBlank c = true) (cs : List Char) :
    IsTokenWord (String.ofList (c :: cs.takeWhile isWordPart)) := by
  refine ⟨by simp, fun d hd => ?_⟩
  rw [String.toList_ofList, List.mem_cons] at hd
  rcases hd with rfl | hd
  · exact isWordPart_iff.mpr ⟨by simpa using hblank, by simpa using hsep⟩
  · exact List.mem_takeWhile_imp hd

/-- Texts are made from the empty text by putting separators, blanks and words in front, where a
word is put in front of what does not go on with it. -/
theorem token_induction {motive : List Char → Prop} (nil : motive [])
    (separator : ∀ cs, motive cs → motive (';' :: cs))
    (blank : ∀ c cs, isBlank c = true → motive cs → motive (c :: cs))
    (word : ∀ text cs, IsTokenWord text → (∀ c ∈ cs.head?, isWordPart c = false) → motive cs →
      motive (text.toList ++ cs))
    (cs : List Char) : motive cs := by
  induction cs using tokens.induct with
  | case1 => exact nil
  | case2 c cs hsep ih =>
    obtain rfl : c = ';' := of_decide_eq_true hsep
    exact separator cs ih
  | case3 c cs _ hblank ih => exact blank c cs hblank ih
  | case4 c cs hsep hblank ih =>
    have hword := word _ _ (isTokenWord_takeWhile hsep hblank cs)
      (fun d hd => isWordPart_of_head?_dropWhile hd) ih
    rwa [String.toList_ofList, List.cons_append, List.takeWhile_append_dropWhile] at hword

/-- The words of tokens are not empty, and nothing in them ends a word. -/
theorem isTokenWord_of_mem_tokens {cs : List Char} {word : String} (h : .word word ∈ tokens cs) :
    IsTokenWord word := by
  induction cs using token_induction with
  | nil => simp [tokens] at h
  | separator cs ih =>
    rw [tokens_cons_of_isSeparator rfl, List.mem_cons] at h
    exact ih (h.resolve_left (by simp))
  | blank c cs hblank ih =>
    rw [tokens_cons_of_isBlank hblank] at h
    exact ih h
  | word text cs htext hcs ih =>
    rw [tokens_word_append htext hcs, List.mem_cons] at h
    rcases h with hword | hrest
    · cases hword
      exact htext
    · exact ih hrest

theorem isTokenWord_of_words? {statement : String} {words : List String}
    (h : words? statement = some words) : ∀ word ∈ words, IsTokenWord word := by
  intro word hword
  have htokens := mapM_word?_eq_some_iff.mp h
  have hmem : .word word ∈ dropSeparator (tokens statement.toList) := by
    rw [htokens]
    exact List.mem_map_of_mem hword
  rw [dropSeparator] at hmem
  split at hmem
  next => exact isTokenWord_of_mem_tokens ((List.dropLast_sublist _).subset hmem)
  next => exact isTokenWord_of_mem_tokens hmem

/-! ### Statements that are written -/

/-- Words are written as a statement, with blanks between them. -/
inductive RendersWords : List String → List Char → Prop where
  /-- A single word is written as it is. -/
  | one (word : String) : RendersWords [word] word.toList
  /-- Between a word and the next one stand blanks, at least one. -/
  | cons {word : String} {blanks : List Char} {words : List String} {cs : List Char}
      (hne : blanks ≠ []) (hblanks : ∀ c ∈ blanks, isBlank c = true)
      (hwords : RendersWords words cs) :
      RendersWords (word :: words) (word.toList ++ (blanks ++ cs))

namespace RendersWords

variable {words : List String} {cs : List Char}

/-- Single blanks will do. -/
theorem intercalate (hne : words ≠ []) : RendersWords words (" ".intercalate words).toList := by
  induction words with
  | nil => exact absurd rfl hne
  | cons word words ih =>
    cases words with
    | nil => exact .one word
    | cons next rest =>
      have hrest := ih (List.cons_ne_nil next rest)
      have hblank : " ".toList = [' '] := rfl
      rw [String.intercalate_cons_of_ne_nil (List.cons_ne_nil next rest), String.toList_append,
        String.toList_append, hblank, List.append_assoc]
      exact .cons (List.cons_ne_nil _ _) (by simp [isBlank]) hrest

theorem tokens_eq (h : RendersWords words cs) (hwords : ∀ word ∈ words, IsTokenWord word) :
    tokens cs = words.map Token.word := by
  induction h with
  | one word => exact tokens_toList (hwords word List.mem_cons_self)
  | @cons word blanks words cs hne hblanks _ ih =>
    obtain ⟨hword, hrest⟩ := List.forall_mem_cons.mp hwords
    have hend : ∀ c ∈ (blanks ++ cs).head?, isWordPart c = false := by
      intro c hc
      rw [List.head?_append_of_ne_nil _ hne] at hc
      exact isWordPart_of_isBlank (hblanks c (List.mem_of_mem_head? hc))
    rw [tokens_word_append hword hend, tokens_blanks_append hblanks, ih hrest, List.map_cons]

theorem ne_nil (h : RendersWords words cs) (hwords : ∀ word ∈ words, IsTokenWord word) :
    cs ≠ [] := by
  cases h with
  | one word => exact (hwords word List.mem_cons_self).toList_ne_nil
  | @cons word _ _ _ _ _ _ => simp [(hwords word List.mem_cons_self).toList_ne_nil]

/-- The characters of a statement are those of its words and the blanks between them. -/
theorem isBlank_or_mem (h : RendersWords words cs) {c : Char} (hc : c ∈ cs) :
    isBlank c = true ∨ ∃ word ∈ words, c ∈ word.toList := by
  induction h with
  | one word => exact .inr ⟨word, List.mem_cons_self, hc⟩
  | @cons word blanks words cs _ hblanks _ ih =>
    rw [List.mem_append, List.mem_append] at hc
    rcases hc with hword | hblank | hrest
    · exact .inr ⟨word, List.mem_cons_self, hword⟩
    · exact .inl (hblanks c hblank)
    · refine (ih hrest).imp_right fun ⟨other, hother, hmem⟩ => ?_
      exact ⟨other, List.mem_cons_of_mem word hother, hmem⟩

theorem separator_not_mem (h : RendersWords words cs) (hwords : ∀ word ∈ words, IsTokenWord word) :
    ';' ∉ cs := by
  intro hmem
  rcases h.isBlank_or_mem hmem with hblank | ⟨word, hword, hmem⟩
  · exact absurd hblank (by decide)
  · exact (hwords word hword).not_mem (by decide) hmem

theorem words?_eq (h : RendersWords words cs) (hwords : ∀ word ∈ words, IsTokenWord word) :
    words? (String.ofList cs) = some words := by
  have hsep : ';' ∉ (String.ofList cs).toList := by
    rw [String.toList_ofList]
    exact h.separator_not_mem hwords
  rw [words?_eq_some_iff hsep, String.toList_ofList]
  exact h.tokens_eq hwords

/-- A statement begins with a character of its first word. -/
theorem isWordPart_head? (h : RendersWords words cs) (hwords : ∀ word ∈ words, IsTokenWord word) :
    ∀ c ∈ cs.head?, isWordPart c = true := by
  intro c hc
  cases h with
  | one word => exact (hwords word List.mem_cons_self).isWordPart_eq c (List.mem_of_mem_head? hc)
  | @cons word _ _ _ _ _ _ =>
    have hword := hwords word List.mem_cons_self
    rw [List.head?_append_of_ne_nil _ hword.toList_ne_nil] at hc
    exact hword.isWordPart_eq c (List.mem_of_mem_head? hc)

/-- A statement begins with a character of a word. -/
theorem head?_eq (h : RendersWords words cs) (hwords : ∀ word ∈ words, IsPlainWord word) :
    ∀ c ∈ cs.head?, isWhiteSpace c = false := by
  intro c hc
  cases h with
  | one word =>
    exact (hwords word List.mem_cons_self).isWhiteSpace_eq c (List.mem_of_mem_head? hc)
  | @cons word _ _ _ _ _ _ =>
    have hword := hwords word List.mem_cons_self
    rw [List.head?_append_of_ne_nil _ hword.isTokenWord.toList_ne_nil] at hc
    exact hword.isWhiteSpace_eq c (List.mem_of_mem_head? hc)

/-- A statement ends with a character of a word. -/
theorem getLast?_eq (h : RendersWords words cs) (hwords : ∀ word ∈ words, IsPlainWord word) :
    ∀ c ∈ cs.getLast?, isWhiteSpace c = false := by
  induction h with
  | one word =>
    intro c hc
    exact (hwords word List.mem_cons_self).isWhiteSpace_eq c (List.mem_of_getLast? hc)
  | cons _ _ hrest ih =>
    have hwords := (List.forall_mem_cons.mp hwords).2
    have hne := hrest.ne_nil fun word hword => (hwords word hword).isTokenWord
    rw [List.getLast?_append_of_ne_nil _ (by simp [hne]), List.getLast?_append_of_ne_nil _ hne]
    exact ih hwords

end RendersWords

/-! ### White space around a statement -/

theorem trim_whites_append {whites : List Char} (h : ∀ c ∈ whites, isWhiteSpace c = true)
    (cs : List Char) : trim (whites ++ cs) = trim cs := by
  rw [trim, trim, List.dropWhile_append_of_pos h]

theorem trim_append_whites {whites : List Char} (h : ∀ c ∈ whites, isWhiteSpace c = true)
    (cs : List Char) : trim (cs ++ whites) = trim cs := by
  induction whites generalizing cs with
  | nil => rw [List.append_nil]
  | cons c whites ih =>
    obtain ⟨hc, hwhites⟩ := List.forall_mem_cons.mp h
    rw [List.append_cons, ih hwhites, trim_append_singleton cs hc]

theorem separator_not_mem_whites {whites : List Char} (h : ∀ c ∈ whites, isWhiteSpace c = true) :
    ';' ∉ whites := fun hmem => absurd (h ';' hmem) (by decide)

/-- A text that neither begins nor ends with white space is trimmed. -/
theorem trim_eq_self {cs : List Char} (hhead : ∀ c ∈ cs.head?, isWhiteSpace c = false)
    (hlast : ∀ c ∈ cs.getLast?, isWhiteSpace c = false) : trim cs = cs := by
  have hkeep (ds : List Char) (h : ∀ c ∈ ds.head?, isWhiteSpace c = false) :
      ds.dropWhile isWhiteSpace = ds := by
    cases ds with
    | nil => rfl
    | cons d ds => exact List.dropWhile_cons_of_neg (by simp [h d rfl])
  rw [trim, hkeep cs hhead, hkeep cs.reverse (by rwa [List.head?_reverse]), List.reverse_reverse]

/-! ### Lines that are written -/

/-- What may stand between two separators of a line: a statement or nothing, with white space around
it. The statement is given by its words. -/
inductive RendersPiece : List (List String) → List Char → Prop where
  /-- A blank piece, which may be empty, is no statement. -/
  | blank {whites : List Char} (hwhites : ∀ c ∈ whites, isWhiteSpace c = true) :
      RendersPiece [] whites
  /-- White space may stand in front of a statement and behind it; blanks are white space. -/
  | statement {front back : List Char} {words : List String} {cs : List Char}
      (hfront : ∀ c ∈ front, isWhiteSpace c = true) (hback : ∀ c ∈ back, isWhiteSpace c = true)
      (hwords : RendersWords words cs) : RendersPiece [words] (front ++ (cs ++ back))

/-- Statements are written as a line, with separators between its pieces. A line that ends with a
separator has an empty piece behind it. -/
inductive RendersLine : List (List String) → List Char → Prop where
  /-- The last piece of a line. -/
  | last {ss : List (List String)} {piece : List Char} (hpiece : RendersPiece ss piece) :
      RendersLine ss piece
  /-- A piece with a separator behind it, and the pieces after that. -/
  | cons {ss : List (List String)} {piece : List Char} {rest : List (List String)} {cs : List Char}
      (hpiece : RendersPiece ss piece) (hrest : RendersLine rest cs) :
      RendersLine (ss ++ rest) (piece ++ ';' :: cs)

/-- The text of a statement is what was written for its words, and has these words. -/
def IsWritten (words : List String) (text : String) : Prop :=
  RendersWords words text.toList ∧ words? text = some words

theorem RendersPiece.forall₂_isWritten {ss : List (List String)} {piece : List Char}
    (h : RendersPiece ss piece) (hwords : ∀ words ∈ ss, ∀ word ∈ words, IsPlainWord word) :
    List.Forall₂ IsWritten ss (statements (String.ofList piece)) := by
  cases h with
  | blank hwhites =>
    rw [statements_of_not_mem (separator_not_mem_whites hwhites),
      if_pos (trim_eq_nil_iff.mpr hwhites)]
    exact .nil
  | @statement front back words cs hfront hback hrenders =>
    have hplain := hwords words List.mem_cons_self
    have htokens : ∀ word ∈ words, IsTokenWord word :=
      fun word hword => (hplain word hword).isTokenWord
    have htrim : trim (front ++ (cs ++ back)) = cs := by
      rw [trim_whites_append hfront, trim_append_whites hback,
        trim_eq_self (hrenders.head?_eq hplain) (hrenders.getLast?_eq hplain)]
    have hsep : ';' ∉ front ++ (cs ++ back) := by
      simp only [List.mem_append, not_or]
      exact ⟨separator_not_mem_whites hfront, hrenders.separator_not_mem htokens,
        separator_not_mem_whites hback⟩
    rw [statements_of_not_mem hsep, htrim, if_neg (hrenders.ne_nil htokens)]
    refine .cons ⟨?_, hrenders.words?_eq htokens⟩ .nil
    rwa [String.toList_ofList]

theorem RendersLine.forall₂_isWritten {ss : List (List String)} {cs : List Char}
    (h : RendersLine ss cs) (hwords : ∀ words ∈ ss, ∀ word ∈ words, IsPlainWord word) :
    List.Forall₂ IsWritten ss (statements (String.ofList cs)) := by
  induction h with
  | last hpiece => exact hpiece.forall₂_isWritten hwords
  | cons hpiece _ ih =>
    rw [List.forall_mem_append] at hwords
    rw [statements_append_separator]
    exact List.rel_append (hpiece.forall₂_isWritten hwords.1) (ih hwords.2)

/-! ### Cutting in one pass -/

/-- The tokens of a text with the places where they begin and end. The text begins at the place
`start`. -/
def placedTokens (start : Nat) : List Char → List (Token × Nat × Nat)
  | [] => []
  | c :: cs =>
    if isSeparator c then (.separator, start, start + 1) :: placedTokens (start + 1) cs
    else if isBlank c then placedTokens (start + 1) cs
    else
      let word := c :: cs.takeWhile isWordPart
      (.word (String.ofList word), start, start + word.length) ::
        placedTokens (start + word.length) (cs.dropWhile isWordPart)
termination_by cs => cs.length
decreasing_by
  · simp
  · simp
  · exact Nat.lt_succ_of_le (length_dropWhile_le _ _)

theorem map_fst_placedTokens (start : Nat) (cs : List Char) :
    (placedTokens start cs).map Prod.fst = tokens cs := by
  fun_induction placedTokens start cs with
  | case1 => rw [tokens, List.map_nil]
  | case2 start c cs hsep ih => rw [tokens, if_pos hsep, List.map_cons, ih]
  | case3 start c cs hsep hblank ih => rw [tokens, if_neg hsep, if_pos hblank, ih]
  | case4 start c cs hsep hblank word ih =>
    rw [tokens, if_neg hsep, if_neg hblank, List.map_cons, ih]

/-- The pieces of a text from the place `start` on, cut where there are separators among its
tokens. -/
def piecesFrom (cs : List Char) (start : Nat) : List (Token × Nat × Nat) → List (List Char)
  | [] => [cs.drop start]
  | (.separator, first, next) :: rest =>
    (cs.drop start).take (first - start) :: piecesFrom cs next rest
  | (.word _, _, _) :: rest => piecesFrom cs start rest

/-- Before the characters `cs` that are still to be read stands a piece that is not yet cut, and
before that what has been cut. -/
theorem piecesFrom_placedTokens (before piece cs : List Char) (h : ';' ∉ piece) :
    piecesFrom (before ++ (piece ++ cs)) before.length
      (placedTokens (before.length + piece.length) cs) = (piece ++ cs).splitOn ';' := by
  induction cs using tokens.induct generalizing before piece with
  | case1 =>
    rw [placedTokens, piecesFrom, List.drop_left, List.append_nil, List.splitOn_eq_singleton h]
  | case2 c cs hsep ih =>
    obtain rfl : c = ';' := of_decide_eq_true hsep
    have hrest := ih (before ++ (piece ++ [';'])) [] List.not_mem_nil
    rw [placedTokens, if_pos hsep, piecesFrom, List.drop_left, Nat.add_sub_cancel_left,
      List.take_left, List.splitOn_append_cons_self_of_not_mem h]
    simpa [Nat.add_assoc] using hrest
  | case3 c cs hsep hblank ih =>
    have hne : c ≠ ';' := fun heq => hsep (decide_eq_true heq)
    have hrest := ih before (piece ++ [c]) (by simp [h, hne.symm])
    rw [placedTokens, if_neg hsep, if_pos hblank]
    simpa [Nat.add_assoc] using hrest
  | case4 c cs hsep hblank ih =>
    have hne : c ≠ ';' := fun heq => hsep (decide_eq_true heq)
    have hword : ';' ∉ cs.takeWhile isWordPart := fun hmem =>
      absurd (List.mem_takeWhile_imp hmem) (by decide)
    have hrest := ih before (piece ++ c :: cs.takeWhile isWordPart) (by simp [h, hne.symm, hword])
    have hcs : cs.takeWhile isWordPart ++ cs.dropWhile isWordPart = cs :=
      List.takeWhile_append_dropWhile
    rw [placedTokens, if_neg hsep, if_neg hblank, piecesFrom]
    simpa [Nat.add_assoc, hcs] using hrest

theorem piecesFrom_eq (cs : List Char) : piecesFrom cs 0 (placedTokens 0 cs) = cs.splitOn ';' :=
  piecesFrom_placedTokens [] [] cs List.not_mem_nil

/-- The statements of a line, cut where its tokens are separators. -/
def statementsByTokens (line : String) : List String :=
  (((piecesFrom line.toList 0 (placedTokens 0 line.toList)).map trim).filter (· ≠ [])).map
    String.ofList

theorem statementsByTokens_eq (line : String) : statementsByTokens line = statements line := by
  rw [statementsByTokens, piecesFrom_eq, statements]

/-! ### Reading what was written -/

/-- **Lexing undoes rendering.** Let statements be written as a line: words with blanks between them,
white space around each statement, separators between the statements, and blank pieces anywhere. If
the words have neither white space nor separators in them, then the line has these statements and no
others, in this order, each without the white space around it; and each has exactly its words. Cutting
the line at the places of its separator tokens gives the same statements. -/
theorem lexing_undoes_rendering {ss : List (List String)} {line : String}
    (hwords : ∀ words ∈ ss, ∀ word ∈ words, IsPlainWord word) (h : RendersLine ss line.toList) :
    (statements line).map words? = ss.map some ∧
    List.Forall₂ (fun words text => RendersWords words text.toList) ss (statements line) ∧
    (placedTokens 0 line.toList).map Prod.fst = tokens line.toList ∧
    statementsByTokens line = statements line := by
  have hwritten : List.Forall₂ IsWritten ss (statements line) := by
    have hchars := h.forall₂_isWritten hwords
    rwa [String.ofList_toList] at hchars
  refine ⟨?_, hwritten.imp fun _ _ hw => hw.1, map_fst_placedTokens 0 _, statementsByTokens_eq line⟩
  rw [← List.forall₂_eq_eq_eq, List.forall₂_map_left_iff, List.forall₂_map_right_iff]
  exact hwritten.flip.imp fun _ _ hw => hw.2

/-- Two statements with a blank one between them, which is a no-break space, and a separator at the
end. -/
theorem lexing_undoes_rendering_blanks :
    (∀ words ∈ [["set", "é", "007"], ["display", "é"]], ∀ word ∈ words, IsPlainWord word) ∧
      RendersLine [["set", "é", "007"], ["display", "é"]]
        "\tset é \n007 ;\u00a0; display é;".toList ∧
      (statements "\tset é \n007 ;\u00a0; display é;").map words? =
        [some ["set", "é", "007"], some ["display", "é"]] := by
  have hplain : ∀ words ∈ [["set", "é", "007"], ["display", "é"]], ∀ word ∈ words,
      IsPlainWord word := by
    have hchars : ∀ words ∈ [["set", "é", "007"], ["display", "é"]], ∀ word ∈ words, word ≠ "" ∧
        ∀ c ∈ word.toList, isWhiteSpace c = false ∧ isSeparator c = false := by
      simp [isSeparator, isWhiteSpace, whiteSpaceRanges]
    intro words hwords word hword
    obtain ⟨hne, hchars⟩ := hchars words hwords word hword
    exact ⟨hne, fun c hc => (hchars c hc).1, fun c hc => (hchars c hc).2⟩
  have hset : RendersWords ["set", "é", "007"]
      ("set".toList ++ ([' '] ++ ("é".toList ++ ([' ', '\n'] ++ "007".toList)))) :=
    .cons (by simp) (by simp [isBlank]) (.cons (by simp) (by simp [isBlank]) (.one "007"))
  have hdisplay : RendersWords ["display", "é"] ("display".toList ++ ([' '] ++ "é".toList)) :=
    .cons (by simp) (by simp [isBlank]) (.one "é")
  have hspace : ∀ c ∈ [' '], isWhiteSpace c = true := by simp [isWhiteSpace, whiteSpaceRanges]
  have htab : ∀ c ∈ ['\t'], isWhiteSpace c = true := by simp [isWhiteSpace, whiteSpaceRanges]
  have hline : RendersLine [["set", "é", "007"], ["display", "é"]]
      "\tset é \n007 ;\u00a0; display é;".toList := by
    have hrest : RendersLine ([["display", "é"]] ++ [])
        ([' '] ++ ("display".toList ++ ([' '] ++ "é".toList) ++ []) ++ [';']) :=
      .cons (.statement hspace (by simp) hdisplay) (.last (.blank (by simp)))
    have hblank : RendersPiece [] ['\u00a0'] := .blank (by simp [isWhiteSpace, whiteSpaceRanges])
    have hfirst : RendersPiece [["set", "é", "007"]] (['\t'] ++ (_ ++ [' '])) :=
      .statement htab hspace hset
    simpa using RendersLine.cons hfirst (.cons hblank hrest)
  exact ⟨hplain, hline, (lexing_undoes_rendering hplain hline).1⟩

end Roman
