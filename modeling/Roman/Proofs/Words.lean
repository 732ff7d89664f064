import Mathlib.Data.List.TakeWhile
import Roman.Script.Token

/-!
# Words of a statement

What the tokens of a text keep of it, and what they drop. The characters of the words, one word
after the other, are the characters that are part of words (`flatMap_chars_tokens`). Where no word
goes on from one text to the next, their tokens are put one after the other (`tokens_append`), and so
blanks at the ends of a text change none of its tokens (`tokens_blanks_append`,
`tokens_append_blanks`). A text without separators is not taken for several statements
(`exists_words?_of_not_mem`).
-/

namespace Roman

theorem isSeparator_of_isBlank {c : Char} (h : isBlank c = true) : isSeparator c = false := by
  refine decide_eq_false ?_
  rintro rfl
  exact absurd h (by decide)

theorem isWordPart_of_isBlank {c : Char} (h : isBlank c = true) : isWordPart c = false := by
  rw [isWordPart, h]
  rfl

/-- What is left behind a word does not begin with a part of it. -/
theorem isWordPart_of_head?_dropWhile {cs : List Char} {c : Char}
    (h : c ∈ (cs.dropWhile isWordPart).head?) : isWordPart c = false := by
  have hnot := List.head?_dropWhile_not isWordPart cs
  rwa [Option.mem_def.mp h] at hnot

/-! ### Words without separators -/

/-- A text without separators has none among its tokens. -/
theorem separator_not_mem_tokens {cs : List Char} (h : ';' ∉ cs) : Token.separator ∉ tokens cs := by
  induction cs using tokens.induct with
  | case1 => simp [tokens]
  | case2 c cs hc ih =>
    have heq : c = ';' := of_decide_eq_true hc
    exact absurd (heq ▸ List.mem_cons_self) h
  | case3 c cs hc hblank ih =>
    rw [tokens, if_neg hc, if_pos hblank]
    exact ih fun hmem => h (List.mem_cons_of_mem c hmem)
  | case4 c cs hc hblank ih =>
    rw [tokens, if_neg hc, if_neg hblank, List.mem_cons, not_or]
    refine ⟨fun hword => ?_, ih fun hmem => h ?_⟩
    · cases hword
    · exact List.mem_cons_of_mem c ((List.dropWhile_sublist _).subset hmem)

/-- Words are the tokens that they are the words of. -/
theorem mapM_word?_eq_some_iff {ts : List Token} {words : List String} :
    ts.mapM Token.word? = some words ↔ ts = words.map Token.word := by
  induction ts generalizing words with
  | nil => cases words <;> simp
  | cons t ts ih =>
    rw [List.mapM_cons]
    cases t with
    | separator => cases words <;> simp [Token.word?]
    | word text =>
      cases words with
      | nil => simp [Token.word?, Option.bind_eq_some_iff]
      | cons first rest =>
        simp only [Token.word?, Option.bind_eq_bind, Option.bind_some, Option.bind_eq_some_iff, ih]
        constructor
        · rintro ⟨words, rfl, hwords⟩
          cases hwords
          rfl
        · intro h
          cases h
          exact ⟨rest, rfl, rfl⟩

/-- Tokens without a separator are words. -/
theorem exists_map_word {ts : List Token} (h : Token.separator ∉ ts) :
    ∃ words : List String, ts = words.map Token.word := by
  induction ts with
  | nil => exact ⟨[], rfl⟩
  | cons t ts ih =>
    rw [List.mem_cons, not_or] at h
    obtain ⟨words, rfl⟩ := ih h.2
    cases t with
    | separator => exact absurd rfl h.1
    | word text => exact ⟨text :: words, rfl⟩

/-- The words of a text without separators are its tokens. -/
theorem words?_eq_some_iff {statement : String} (h : ';' ∉ statement.toList) {words : List String} :
    words? statement = some words ↔ tokens statement.toList = words.map Token.word := by
  have hlast : (tokens statement.toList).getLast? ≠ some .separator :=
    fun hlast => separator_not_mem_tokens h (List.mem_of_getLast? hlast)
  rw [words?, dropSeparator, if_neg hlast, mapM_word?_eq_some_iff]

/-- A text without separators is not taken for several statements. -/
theorem exists_words?_of_not_mem {statement : String} (h : ';' ∉ statement.toList) :
    ∃ words, words? statement = some words := by
  obtain ⟨words, hwords⟩ := exists_map_word (separator_not_mem_tokens h)
  exact ⟨words, (words?_eq_some_iff h).mpr hwords⟩

/-- Texts without separators have the same words if and only if they have the same tokens. -/
theorem words?_eq_iff {statement other : String} (h : ';' ∉ statement.toList)
    (hother : ';' ∉ other.toList) :
    words? statement = words? other ↔ tokens statement.toList = tokens other.toList := by
  obtain ⟨words, hwords⟩ := exists_words?_of_not_mem hother
  rw [hwords, words?_eq_some_iff h, (words?_eq_some_iff hother).mp hwords]

/-! ### What tokens keep of a text -/

/-- The characters of a token's word. -/
def Token.chars : Token → List Char
  | separator => []
  | word text => text.toList

/-- The words of a text keep all characters that are part of words, in order. -/
theorem flatMap_chars_tokens (cs : List Char) :
    (tokens cs).flatMap Token.chars = cs.filter isWordPart := by
  induction cs using tokens.induct with
  | case1 => simp [tokens]
  | case2 c cs hc ih =>
    have hpart : isWordPart c = false := by simp [isWordPart, hc]
    rw [tokens, if_pos hc, List.flatMap_cons, ih, List.filter_cons_of_neg (by simp [hpart])]
    rfl
  | case3 c cs hc hblank ih =>
    rw [tokens, if_neg hc, if_pos hblank, ih,
      List.filter_cons_of_neg (by simp [isWordPart_of_isBlank hblank])]
  | case4 c cs hc hblank ih =>
    have hpart : isWordPart c = true := by simp [isWordPart, hc, hblank]
    have hword : (cs.takeWhile isWordPart).filter isWordPart = cs.takeWhile isWordPart :=
      List.filter_eq_self.mpr fun _ => List.mem_takeWhile_imp
    rw [tokens, if_neg hc, if_neg hblank, List.flatMap_cons, ih, List.filter_cons_of_pos hpart]
    conv => rhs; rw [← List.takeWhile_append_dropWhile (p := isWordPart) (l := cs),
      List.filter_append, hword]
    rw [Token.chars, String.toList_ofList, List.cons_append]

/-! ### Blanks at the ends of a text -/

theorem tokens_cons_of_isSeparator {c : Char} (h : isSeparator c = true) (cs : List Char) :
    tokens (c :: cs) = .separator :: tokens cs := by
  rw [tokens, if_pos h]

theorem tokens_cons_of_isBlank {c : Char} (h : isBlank c = true) (cs : List Char) :
    tokens (c :: cs) = tokens cs := by
  rw [tokens, if_neg (by simp [isSeparator_of_isBlank h]), if_pos h]

theorem tokens_cons_of_part {c : Char} (hsep : ¬ isSeparator c = true) (hblank : ¬ isBlank c = true)
    (cs : List Char) :
    tokens (c :: cs) =
      .word (String.ofList (c :: cs.takeWhile isWordPart)) :: tokens (cs.dropWhile isWordPart) := by
  rw [tokens, if_neg hsep, if_neg hblank]

/-- Blanks in front of a text change none of its tokens. -/
theorem tokens_blanks_append {blanks : List Char} (h : ∀ c ∈ blanks, isBlank c = true)
    (cs : List Char) : tokens (blanks ++ cs) = tokens cs := by
  induction blanks with
  | nil => rfl
  | cons c blanks ih =>
    obtain ⟨hc, hblanks⟩ := List.forall_mem_cons.mp h
    rw [List.cons_append, tokens_cons_of_isBlank hc, ih hblanks]

/-- A text has no tokens if and only if it is made of blanks. -/
theorem tokens_eq_nil_iff {cs : List Char} : tokens cs = [] ↔ ∀ c ∈ cs, isBlank c = true := by
  constructor
  · intro h
    induction cs using tokens.induct with
    | case1 => exact fun c hc => absurd hc List.not_mem_nil
    | case2 c cs hsep _ =>
      rw [tokens_cons_of_isSeparator hsep] at h
      cases h
    | case3 c cs _ hblank ih =>
      rw [tokens_cons_of_isBlank hblank] at h
      exact List.forall_mem_cons.mpr ⟨hblank, ih h⟩
    | case4 c cs hsep hblank _ =>
      rw [tokens_cons_of_part hsep hblank] at h
      cases h
  · intro h
    have hnone := tokens_blanks_append h []
    rwa [List.append_nil, tokens] at hnone

/-! ### Texts one after the other -/

/-- Two texts have the tokens of both, one after the other, unless a word goes on from the first to
the second. -/
theorem tokens_append {ds : List Char} (h : ∀ c ∈ ds.head?, isWordPart c = false)
    (cs : List Char) : tokens (cs ++ ds) = tokens cs ++ tokens ds := by
  have htake : ds.takeWhile isWordPart = [] := by
    cases ds with
    | nil => rfl
    | cons d ds => exact List.takeWhile_cons_of_neg (by simp [h d rfl])
  have hdrop : ds.dropWhile isWordPart = ds := by
    cases ds with
    | nil => rfl
    | cons d ds => exact List.dropWhile_cons_of_neg (by simp [h d rfl])
  induction cs using tokens.induct with
  | case1 => simp [tokens]
  | case2 c cs hsep ih =>
    rw [List.cons_append, tokens_cons_of_isSeparator hsep, ih, tokens_cons_of_isSeparator hsep,
      List.cons_append]
  | case3 c cs hsep hblank ih =>
    rw [List.cons_append, tokens_cons_of_isBlank hblank, ih, tokens_cons_of_isBlank hblank]
  | case4 c cs hsep hblank ih =>
    have htakeAll : (cs ++ ds).takeWhile isWordPart = cs.takeWhile isWordPart := by
      rw [List.takeWhile_append]
      split
      next hall => rw [htake, List.append_nil, (List.takeWhile_sublist _).eq_of_length hall]
      next => rfl
    have hdropAll : (cs ++ ds).dropWhile isWordPart = cs.dropWhile isWordPart ++ ds := by
      rw [List.dropWhile_append]
      split
      next hall => rw [hdrop, List.isEmpty_iff.mp hall, List.nil_append]
      next => rfl
    rw [List.cons_append, tokens_cons_of_part hsep hblank, htakeAll, hdropAll, ih,
      tokens_cons_of_part hsep hblank, List.cons_append]

/-- A separator is a token wherever it stands, and cuts the tokens of a text in two. -/
theorem tokens_append_separator (cs ds : List Char) :
    tokens (cs ++ ';' :: ds) = tokens cs ++ .separator :: tokens ds := by
  rw [tokens_append (by simp [isWordPart, isSeparator]), tokens_cons_of_isSeparator rfl]

/-- Blanks at the end of a text change none of its tokens. -/
theorem tokens_append_blanks {blanks : List Char} (h : ∀ c ∈ blanks, isBlank c = true)
    (cs : List Char) : tokens (cs ++ blanks) = tokens cs := by
  have hhead : ∀ c ∈ blanks.head?, isWordPart c = false := fun c hc =>
    isWordPart_of_isBlank (h c (List.mem_of_mem_head? hc))
  rw [tokens_append hhead, tokens_eq_nil_iff.mpr h, List.append_nil]

end Roman
