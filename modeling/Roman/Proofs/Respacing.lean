import Mathlib.Data.List.Forall2
import Roman.Proofs.Moments
import Roman.Proofs.Rendering

/-!
# Lines with the same tokens

How a line is spaced makes no difference: lines with the same tokens have the same results, the same
errors and the same store (`respacing_alike`), and only the texts of statements can be seen to differ.

This is not clear at once. Before its words are taken, a statement is trimmed, and what is trimmed is
white space, which may be a part of words: some words at its ends get shorter, and some are lost. But
what becomes of them can be said of the tokens alone. White space in front of a text is dropped from
its tokens word by word (`tokens_dropWhile`), and the end of a text is the front of the text read
backwards (`tokens_reverse`). So the tokens of the statements of a line are given by the tokens of the
line (`map_tokens_statements`).
-/

namespace Roman

/-! ### Texts read backwards -/

/-- Behind a blank or a separator no word goes on: the tokens of a text that ends with one and of what
follows are those of both, one after the other. -/
theorem tokens_append_of_getLast? {cs : List Char} (h : ∀ c ∈ cs.getLast?, isWordPart c = false)
    (ds : List Char) : tokens (cs ++ ds) = tokens cs ++ tokens ds := by
  cases hlast : cs.getLast? with
  | none =>
    rw [List.getLast?_eq_none_iff.mp hlast, tokens]
    rfl
  | some c =>
    obtain ⟨before, rfl⟩ := List.getLast?_eq_some_iff.mp hlast
    have hpart : isWordPart c = false := h c hlast
    have hcons : tokens (c :: ds) = tokens [c] ++ tokens ds := by
      by_cases hsep : isSeparator c = true
      · simp [tokens, hsep]
      · have hblank : isBlank c = true := by simpa [isWordPart, hsep] using hpart
        rw [tokens_cons_of_isBlank hblank, tokens_cons_of_isBlank hblank, tokens, List.nil_append]
    rw [List.append_assoc, List.singleton_append, tokens_append (by simpa using hpart), hcons,
      tokens_append (by simpa using hpart), List.append_assoc]

/-- A token with the characters of its word read backwards. -/
def Token.reverse : Token → Token
  | separator => separator
  | word text => word (String.ofList text.toList.reverse)

/-- Tokens read backwards. -/
def reverseTokens (ts : List Token) : List Token := (ts.map Token.reverse).reverse

theorem reverseTokens_cons (t : Token) (ts : List Token) :
    reverseTokens (t :: ts) = reverseTokens ts ++ [t.reverse] := by
  rw [reverseTokens, List.map_cons, List.reverse_cons, reverseTokens]

theorem IsTokenWord.reverse {word : String} (h : IsTokenWord word) :
    IsTokenWord (String.ofList word.toList.reverse) where
  ne_empty := by simp [h.ne_empty]
  isWordPart_eq c hc := by
    rw [String.toList_ofList, List.mem_reverse] at hc
    exact h.isWordPart_eq c hc

/-- A text that is read backwards has its tokens read backwards. -/
theorem tokens_reverse (cs : List Char) : tokens cs.reverse = reverseTokens (tokens cs) := by
  induction cs using token_induction with
  | nil =>
    rw [List.reverse_nil, tokens]
    rfl
  | separator cs ih =>
    rw [List.reverse_cons, tokens_append_separator, tokens, ih, tokens_cons_of_isSeparator rfl,
      reverseTokens_cons]
    rfl
  | blank c cs hblank ih =>
    rw [List.reverse_cons, tokens_append_blanks (by simpa using hblank), ih,
      tokens_cons_of_isBlank hblank]
  | word text cs htext hcs ih =>
    have hend : ∀ c ∈ cs.reverse.getLast?, isWordPart c = false := by
      rwa [List.getLast?_reverse]
    have hreverse := tokens_toList htext.reverse
    rw [String.toList_ofList] at hreverse
    rw [List.reverse_append, tokens_append_of_getLast? hend, ih, hreverse,
      tokens_word_append htext hcs, reverseTokens_cons, Token.reverse]

/-! ### White space and tokens -/

/-- Tokens without the white space in front of them: words that are white space are dropped, and the
first one that is not begins with what else is in it. -/
def dropWhite : List Token → List Token
  | [] => []
  | .separator :: ts => .separator :: ts
  | .word text :: ts =>
    match text.toList.dropWhile isWhiteSpace with
    | [] => dropWhite ts
    | c :: cs => .word (String.ofList (c :: cs)) :: ts

/-- White space in front of a text is dropped from its tokens word by word. -/
theorem tokens_dropWhile (cs : List Char) :
    tokens (cs.dropWhile isWhiteSpace) = dropWhite (tokens cs) := by
  induction cs using token_induction with
  | nil =>
    rw [List.dropWhile_nil, tokens]
    rfl
  | separator cs _ =>
    rw [List.dropWhile_cons_of_neg (by decide), tokens_cons_of_isSeparator rfl]
    rfl
  | blank c cs hblank ih =>
    rw [List.dropWhile_cons_of_pos (isWhiteSpace_of_isBlank hblank), ih, tokens_cons_of_isBlank hblank]
  | word text cs htext hcs ih =>
    rw [tokens_word_append htext hcs, dropWhite, List.dropWhile_append]
    cases hdrop : text.toList.dropWhile isWhiteSpace with
    | nil => exact ih
    | cons d ds =>
      have hword : IsTokenWord (String.ofList (d :: ds)) := by
        refine ⟨by simp, fun e he => htext.isWordPart_eq e ?_⟩
        rw [String.toList_ofList, ← hdrop] at he
        exact (List.dropWhile_sublist _).subset he
      have happend := tokens_word_append hword hcs
      rwa [String.toList_ofList] at happend

/-- Tokens without the white space at both ends. -/
def trimTokens (ts : List Token) : List Token :=
  reverseTokens (dropWhite (reverseTokens (dropWhite ts)))

/-- A text that is trimmed has its tokens trimmed. -/
theorem tokens_trim (cs : List Char) : tokens (trim cs) = trimTokens (tokens cs) := by
  rw [trim, tokens_reverse, tokens_dropWhile, tokens_reverse, tokens_dropWhile, trimTokens]

/-- What is left of a trimmed text has tokens, unless nothing is left. -/
theorem tokens_trim_eq_nil_iff {cs : List Char} : tokens (trim cs) = [] ↔ trim cs = [] := by
  constructor
  · intro h
    have hblanks := tokens_eq_nil_iff.mp h
    rw [← trim_trim]
    exact trim_eq_nil_iff.mpr fun c hc => isWhiteSpace_of_isBlank (hblanks c hc)
  · intro h
    rw [h, tokens]

/-- The tokens between separators are those of what stands between separators. -/
theorem splitOn_tokens (cs : List Char) :
    (tokens cs).splitOn .separator = (cs.splitOn ';').map tokens := by
  induction cs using separator_induction ';' with
  | piece cs h =>
    rw [List.splitOn_eq_singleton (separator_not_mem_tokens h), List.splitOn_eq_singleton h,
      List.map_singleton]
  | join cs ds ihcs ihds =>
    rw [tokens_append_separator, List.splitOn_append_cons_self, ihcs, ihds,
      List.splitOn_append_cons_self, List.map_append]

/-- The tokens of the statements of a line: those between separators, trimmed, unless none are
left. -/
theorem map_tokens_statements (line : String) :
    (statements line).map (fun text => tokens text.toList) =
      (((tokens line.toList).splitOn .separator).map trimTokens).filter (· ≠ []) := by
  have hkept (piece : List Char) : decide (trimTokens (tokens piece) ≠ []) = decide (trim piece ≠ []) := by
    rw [← tokens_trim]
    exact decide_eq_decide.mpr (not_congr tokens_trim_eq_nil_iff)
  rw [splitOn_tokens, statements, List.map_map, List.map_map, List.filter_map, List.filter_map,
    List.map_map]
  simp only [Function.comp_def, String.toList_ofList, hkept, tokens_trim]

/-! ### Statements with the same tokens -/

/-- Two texts have the same tokens. -/
def SameTokens (text other : String) : Prop := tokens text.toList = tokens other.toList

theorem SameTokens.parse_eq {text other : String} (h : SameTokens text other) :
    Command.parse text = Command.parse other := by
  rw [SameTokens] at h
  rw [Command.parse, Command.parse, words?, words?, h]

/-- Lines with the same tokens have as many statements, and these have the same tokens. -/
theorem SameTokens.statements {line other : String} (h : SameTokens line other) :
    List.Forall₂ SameTokens (statements line) (statements other) := by
  rw [SameTokens] at h
  have heq := map_tokens_statements line
  rw [h, ← map_tokens_statements other, ← List.forall₂_eq_eq_eq, List.forall₂_map_left_iff,
    List.forall₂_map_right_iff] at heq
  exact heq

/-- Two failures have the same error, and their statements the same tokens. -/
structure Failure.Alike (f other : Failure) : Prop where
  statement : SameTokens f.statement other.statement
  error : f.error = other.error

/-- Two records are the same but for the texts of statements, which have the same tokens. -/
inductive Record.Alike : Record → Record → Prop where
  /-- Statements of the same category are carried out. -/
  | dispatching {text other : String} (h : SameTokens text other) (category : Category) :
      Alike (.dispatching text category) (.dispatching other category)
  /-- Statements fail alike. -/
  | failed {f other : Failure} (h : f.Alike other) : Alike (.failed f) (.failed other)
  /-- The records are the same. -/
  | refl (r : Record) : Alike r r

/-- Two runs are the same but for the texts of statements. -/
structure Run.Alike (run other : Run) : Prop where
  results : run.execution.results = other.execution.results
  failures : List.Forall₂ Failure.Alike run.execution.failures other.execution.failures
  store : run.store = other.store
  records : List.Forall₂ Record.Alike run.records other.records

namespace Run

/-- Statements with the same tokens have runs that are alike. -/
theorem alike_ofStatement {text other : String} (h : SameTokens text other) (s : Store) :
    (ofStatement text s).Alike (ofStatement other s) := by
  have hsame (rs : List Record) : List.Forall₂ Record.Alike rs rs :=
    List.forall₂_same.mpr fun r _ => .refl r
  rw [ofStatement, ofStatement, executeStatement_eq, executeStatement_eq, h.parse_eq]
  cases Command.parse other with
  | error e =>
    have hfailure : Failure.Alike ⟨text, e⟩ ⟨other, e⟩ := ⟨h, rfl⟩
    exact ⟨rfl, .cons hfailure .nil, rfl, .cons (.failed hfailure) .nil⟩
  | ok c =>
    have hrecords : List.Forall₂ Record.Alike
        (.dispatching text c.category :: (c.handle c.category s).records)
        (.dispatching other c.category :: (c.handle c.category s).records) :=
      .cons (.dispatching h c.category) (hsame _)
    dsimp only
    cases (c.handle c.category s).outcome with
    | error e =>
      have hfailure : Failure.Alike ⟨text, e⟩ ⟨other, e⟩ := ⟨h, rfl⟩
      exact ⟨rfl, .cons hfailure .nil, rfl, List.rel_append hrecords (.cons (.failed hfailure) .nil)⟩
    | ok answer =>
      cases answer with
      | none => exact ⟨rfl, .nil, rfl, hrecords⟩
      | some value => exact ⟨rfl, .nil, rfl, hrecords⟩

/-- Runs that are alike one by one are alike one after the other: each leaves the next the same
store. -/
theorem alike_inOrder {texts others : List String} (h : List.Forall₂ SameTokens texts others)
    (s : Store) : (inOrder ofStatement texts s).Alike (inOrder ofStatement others s) := by
  induction h generalizing s with
  | nil => exact ⟨rfl, .nil, rfl, .nil⟩
  | @cons text other texts others htext _ ih =>
    have hfirst := alike_ofStatement htext s
    have hrest := ih (ofStatement text s).store
    rw [inOrder, inOrder]
    rw [hfirst.store] at hrest ⊢
    exact
      { results := congrArg₂ (· ++ ·) hfirst.results hrest.results
        failures := List.rel_append hfirst.failures hrest.failures
        store := hrest.store
        records := List.rel_append hfirst.records hrest.records }

end Run

/-- **Only tokens matter.** Whatever the store, two lines with the same tokens have the same results,
the same errors in the same order and the same store afterwards. Their failures have statements with
the same tokens, one by one, and their records are the same but for the texts of statements. Nothing
else of the lines is looked at: the tokens of their statements, which are trimmed, are given by the
tokens of the lines. -/
theorem respacing_alike (line other : String) (h : SameTokens line other) (s : Store) :
    (Run.ofLine line s).execution.results = (Run.ofLine other s).execution.results ∧
    (Run.ofLine line s).execution.failures.map Failure.error =
      (Run.ofLine other s).execution.failures.map Failure.error ∧
    (Run.ofLine line s).store = (Run.ofLine other s).store ∧
    (Run.ofLine line s).Alike (Run.ofLine other s) ∧
    List.Forall₂ SameTokens (statements line) (statements other) := by
  have halike : (Run.ofLine line s).Alike (Run.ofLine other s) := Run.alike_inOrder h.statements s
  refine ⟨halike.results, ?_, halike.store, halike, h.statements⟩
  rw [← List.forall₂_eq_eq_eq, List.forall₂_map_left_iff, List.forall₂_map_right_iff]
  exact halike.failures.imp fun _ _ hfailure => hfailure.error

/-- Two lines that are spaced differently. They begin with a no-break space, which is a word of its
own and is lost, and their first statement ends with one, which is a part of its last word. -/
theorem respacing_alike_noBreakSpace :
    SameTokens "\u00a0 display X\u00a0; set a\tV" "\u00a0\tdisplay\r\nX\u00a0 ;set a V " ∧
      (Run.ofLine "\u00a0 display X\u00a0; set a\tV" .empty).execution = ⟨[.text "X"], []⟩ ∧
      (Run.ofLine "\u00a0\tdisplay\r\nX\u00a0 ;set a V " .empty).execution.results =
        [.text "X"] := by
  have hsame : SameTokens "\u00a0 display X\u00a0; set a\tV"
      "\u00a0\tdisplay\r\nX\u00a0 ;set a V " := by
    rw [SameTokens]
    cbv
  have hline : (Run.ofLine "\u00a0 display X\u00a0; set a\tV" .empty).execution =
      ⟨[.text "X"], []⟩ := by cbv
  refine ⟨hsame, hline, ?_⟩
  rw [← (respacing_alike _ _ hsame .empty).1, hline]

end Roman
