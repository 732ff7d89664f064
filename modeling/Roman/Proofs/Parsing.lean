import Roman.Outcome
import Roman.Proofs.Rendering
import Roman.Script.Command

/-!
# Reading commands

A text is read as a command from its tokens. It has to be a single statement, to have two words, and
to begin with a keyword; the first of these that fails is the error (`Command.Reads`). Which texts are
single statements can also be seen from their characters: there may be one separator, and behind it
there are only blanks (`isSingle_iff`, `isSeveral_iff`).

A command has one written form with single blanks, and is read back from it, with or without a
separator at the end (`Command.parse_intercalate`, `Command.parse_append_separator`).
-/

namespace Roman

/-! ### Single statements -/

/-- A text is a single statement with the given words: they are its tokens, with or without a
separator behind them. -/
def IsSingle (text : String) (words : List String) : Prop :=
  tokens text.toList = words.map Token.word ∨
    tokens text.toList = words.map Token.word ++ [.separator]

/-- A text is more than one statement: among its tokens is a separator that is not the last of
them. -/
def IsSeveral (text : String) : Prop :=
  ∃ before after, tokens text.toList = before ++ .separator :: after ∧ after ≠ []

theorem separator_not_mem_map_word (words : List String) :
    Token.separator ∉ words.map Token.word := by
  simp

theorem dropSeparator_eq_map_word_iff {ts : List Token} {words : List String} :
    dropSeparator ts = words.map Token.word ↔
      ts = words.map Token.word ∨ ts = words.map Token.word ++ [.separator] := by
  rw [dropSeparator]
  split
  next hlast =>
    obtain ⟨before, rfl⟩ := List.getLast?_eq_some_iff.mp hlast
    have hne : before ++ [.separator] ≠ words.map Token.word := fun heq =>
      separator_not_mem_map_word words (heq ▸ by simp)
    rw [List.dropLast_concat, or_iff_right hne, List.append_left_inj]
  next hlast =>
    refine (or_iff_left ?_).symm
    rintro rfl
    exact hlast (List.getLast?_concat ..)

theorem separator_mem_dropSeparator_iff {ts : List Token} :
    Token.separator ∈ dropSeparator ts ↔
      ∃ before after, ts = before ++ .separator :: after ∧ after ≠ [] := by
  constructor
  · intro h
    rw [dropSeparator] at h
    split at h
    next hlast =>
      obtain ⟨front, rfl⟩ := List.getLast?_eq_some_iff.mp hlast
      rw [List.dropLast_concat] at h
      obtain ⟨before, after, rfl⟩ := List.append_of_mem h
      exact ⟨before, after ++ [.separator], by simp, by simp⟩
    next hlast =>
      obtain ⟨before, after, rfl⟩ := List.append_of_mem h
      refine ⟨before, after, rfl, ?_⟩
      rintro rfl
      exact hlast (List.getLast?_concat ..)
  · rintro ⟨before, after, rfl, hne⟩
    rw [dropSeparator]
    split
    · rw [List.dropLast_append_of_ne_nil (List.cons_ne_nil _ _), List.dropLast_cons_of_ne_nil hne]
      simp
    · simp

/-- A text has the words of a single statement if it is one. -/
theorem words?_eq_some_iff_isSingle {text : String} {words : List String} :
    words? text = some words ↔ IsSingle text words := by
  rw [words?, mapM_word?_eq_some_iff, dropSeparator_eq_map_word_iff, IsSingle]

/-- A text has no words to give if it is more than one statement. -/
theorem words?_eq_none_iff_isSeveral {text : String} : words? text = none ↔ IsSeveral text := by
  rw [IsSeveral, ← separator_mem_dropSeparator_iff]
  constructor
  · intro h
    by_contra hmem
    obtain ⟨words, hwords⟩ := exists_map_word hmem
    rw [words?, mapM_word?_eq_some_iff.mpr hwords] at h
    cases h
  · intro h
    rw [Option.eq_none_iff_forall_ne_some]
    intro words hwords
    rw [words?, mapM_word?_eq_some_iff] at hwords
    rw [hwords] at h
    exact separator_not_mem_map_word words h

/-! ### Single statements by their characters -/

/-- What a single statement is written as: words with blanks between them and around them, or
blanks alone. -/
inductive RendersStatement : List String → List Char → Prop where
  /-- Without words there are only blanks. -/
  | blank {blanks : List Char} (hblanks : ∀ c ∈ blanks, isBlank c = true) :
      RendersStatement [] blanks
  /-- Blanks may stand in front of the words and behind them. -/
  | words {front back : List Char} {words : List String} {cs : List Char}
      (hfront : ∀ c ∈ front, isBlank c = true) (hback : ∀ c ∈ back, isBlank c = true)
      (hwords : RendersWords words cs) : RendersStatement words (front ++ (cs ++ back))

theorem RendersStatement.tokens_eq {words : List String} {cs : List Char}
    (h : RendersStatement words cs) (hwords : ∀ word ∈ words, IsTokenWord word) :
    tokens cs = words.map Token.word := by
  cases h with
  | blank hblanks => exact tokens_eq_nil_iff.mpr hblanks
  | words hfront hback hrenders =>
    rw [tokens_blanks_append hfront, tokens_append_blanks hback, hrenders.tokens_eq hwords]

/-- A blank more in front of a statement makes no difference. -/
theorem RendersStatement.cons {words : List String} {cs : List Char} {c : Char}
    (hc : isBlank c = true) (h : RendersStatement words cs) : RendersStatement words (c :: cs) := by
  cases h with
  | blank hblanks => exact .blank (List.forall_mem_cons.mpr ⟨hc, hblanks⟩)
  | words hfront hback hrenders =>
    exact .words (List.forall_mem_cons.mpr ⟨hc, hfront⟩) hback hrenders

/-- A word may be put in front of a statement that does not go on with it. -/
theorem RendersStatement.word_append {words : List String} {cs : List Char}
    (h : RendersStatement words cs) (hwords : ∀ word ∈ words, IsTokenWord word)
    (hcs : ∀ c ∈ cs.head?, isWordPart c = false) (word : String) :
    RendersStatement (word :: words) (word.toList ++ cs) := by
  have hnone : ∀ c ∈ ([] : List Char), isBlank c = true := fun c hc => absurd hc List.not_mem_nil
  cases h with
  | blank hblanks => exact .words hnone hblanks (.one word)
  | @words front back words cs hfront hback hrenders =>
    have hne : front ≠ [] := by
      rintro rfl
      obtain ⟨c, rest, rfl⟩ := List.exists_cons_of_ne_nil (hrenders.ne_nil hwords)
      exact absurd (hrenders.isWordPart_head? hwords c rfl) (by simp [hcs c rfl])
    have hcons : RendersWords (word :: words) (word.toList ++ (front ++ cs)) :=
      .cons hne hfront hrenders
    simpa using RendersStatement.words hnone hback hcons

/-- The tokens of a text are words if and only if the text is written as a statement with these
words. -/
theorem tokens_eq_map_word_iff {words : List String} {cs : List Char} :
    tokens cs = words.map Token.word ↔
      RendersStatement words cs ∧ ∀ word ∈ words, IsTokenWord word := by
  refine ⟨fun h => ?_, fun ⟨h, hwords⟩ => h.tokens_eq hwords⟩
  have hwords : ∀ word ∈ words, IsTokenWord word := fun word hword =>
    isTokenWord_of_mem_tokens (h ▸ List.mem_map_of_mem hword)
  refine ⟨?_, hwords⟩
  induction cs using token_induction generalizing words with
  | nil =>
    rw [tokens] at h
    rw [List.map_eq_nil_iff.mp h.symm]
    exact .blank (by simp)
  | separator cs _ =>
    rw [tokens_cons_of_isSeparator rfl] at h
    exact absurd (h ▸ List.mem_cons_self) (separator_not_mem_map_word words)
  | blank c cs hblank ih =>
    rw [tokens_cons_of_isBlank hblank] at h
    exact (ih h hwords).cons hblank
  | word text cs htext hcs ih =>
    rw [tokens_word_append htext hcs] at h
    obtain ⟨word, rest, rfl, hword, hrest⟩ := List.map_eq_cons_iff.mp h.symm
    cases hword
    have hwords' := (List.forall_mem_cons.mp hwords).2
    exact (ih hrest.symm hwords').word_append hwords' hcs text

/-- Where a separator is a token, the text is cut. -/
theorem exists_of_tokens_eq {cs : List Char} {before after : List Token}
    (h : tokens cs = before ++ .separator :: after) :
    ∃ ds es, cs = ds ++ ';' :: es ∧ tokens ds = before ∧ tokens es = after := by
  induction cs using token_induction generalizing before with
  | nil =>
    rw [tokens] at h
    exact absurd h (by simp)
  | separator cs ih =>
    rw [tokens_cons_of_isSeparator rfl] at h
    cases before with
    | nil =>
      cases h
      exact ⟨[], cs, rfl, by rw [tokens], rfl⟩
    | cons t before =>
      obtain ⟨rfl, hrest⟩ := List.cons.inj h
      obtain ⟨ds, es, rfl, hds, hes⟩ := ih hrest
      exact ⟨';' :: ds, es, rfl, by rw [tokens_cons_of_isSeparator rfl, hds], hes⟩
  | blank c cs hblank ih =>
    rw [tokens_cons_of_isBlank hblank] at h
    obtain ⟨ds, es, rfl, hds, hes⟩ := ih h
    exact ⟨c :: ds, es, rfl, by rw [tokens_cons_of_isBlank hblank, hds], hes⟩
  | word text cs htext hcs ih =>
    rw [tokens_word_append htext hcs] at h
    cases before with
    | nil => cases h
    | cons t before =>
      obtain ⟨rfl, hrest⟩ := List.cons.inj h
      obtain ⟨ds, es, rfl, hds, hes⟩ := ih hrest
      have hend : ∀ c ∈ ds.head?, isWordPart c = false := fun c hc => hcs c (by
        rw [List.head?_append, Option.mem_def.mp hc]
        rfl)
      exact ⟨text.toList ++ ds, es, (List.append_assoc ..).symm,
        by rw [tokens_word_append htext hend, hds], hes⟩

/-- A single statement is its words as they are written, and behind them at most a separator with
blanks. -/
theorem isSingle_iff {text : String} {words : List String} :
    IsSingle text words ↔ (∀ word ∈ words, IsTokenWord word) ∧
      ∃ cs back, text.toList = cs ++ back ∧ RendersStatement words cs ∧
        (back = [] ∨ ∃ blanks, back = ';' :: blanks ∧ ∀ c ∈ blanks, isBlank c = true) := by
  constructor
  · rintro (h | h)
    · obtain ⟨hrenders, hwords⟩ := tokens_eq_map_word_iff.mp h
      exact ⟨hwords, text.toList, [], (List.append_nil _).symm, hrenders, .inl rfl⟩
    · obtain ⟨cs, blanks, htext, hcs, hblanks⟩ := exists_of_tokens_eq h
      obtain ⟨hrenders, hwords⟩ := tokens_eq_map_word_iff.mp hcs
      exact ⟨hwords, cs, ';' :: blanks, htext, hrenders, .inr ⟨blanks, rfl, tokens_eq_nil_iff.mp hblanks⟩⟩
  · rintro ⟨hwords, cs, back, htext, hrenders, hback⟩
    have hcs := hrenders.tokens_eq hwords
    rcases hback with rfl | ⟨blanks, rfl, hblanks⟩
    · exact .inl (by rw [htext, List.append_nil, hcs])
    · exact .inr (by rw [htext, tokens_append_separator, hcs, tokens_eq_nil_iff.mpr hblanks])

/-- A text is more than one statement if and only if something that is not blank stands behind a
separator. -/
theorem isSeveral_iff {text : String} :
    IsSeveral text ↔
      ∃ before after, text.toList = before ++ ';' :: after ∧ ∃ c ∈ after, isBlank c = false := by
  have hblank (cs : List Char) : tokens cs ≠ [] ↔ ∃ c ∈ cs, isBlank c = false := by
    rw [ne_eq, tokens_eq_nil_iff]
    simp
  constructor
  · rintro ⟨before, after, h, hne⟩
    obtain ⟨ds, es, htext, -, rfl⟩ := exists_of_tokens_eq h
    exact ⟨ds, es, htext, (hblank es).mp hne⟩
  · rintro ⟨ds, es, htext, hes⟩
    exact ⟨tokens ds, tokens es, by rw [htext, tokens_append_separator], (hblank es).mpr hes⟩

/-! ### Keywords -/

theorem Keyword.isTokenWord_word (k : Keyword) : IsTokenWord k.word := by
  cases k <;> exact ⟨by decide, by simp [word, isWordPart, isBlank, isSeparator]⟩

theorem Keyword.parse_word (k : Keyword) : parse k.word = .ok k := by
  cases k <;> rfl

theorem Keyword.word_of_ofWord? {word : String} {k : Keyword} (h : ofWord? word = some k) :
    k.word = word := by
  have hword := List.find?_some h
  exact of_decide_eq_true hword

/-- There are seven keywords. -/
theorem Keyword.exists_word_eq_iff {word : String} :
    (∃ k : Keyword, k.word = word) ↔
      word ∈ ["set", "add", "subtract", "multiply", "divide", "convert", "display"] := by
  constructor
  · rintro ⟨k, rfl⟩
    cases k <;> decide
  · intro h
    have hall : word ∈ Keyword.all.map Keyword.word := h
    obtain ⟨k, -, rfl⟩ := List.mem_map.mp hall
    exact ⟨k, rfl⟩

/-- A word that is no keyword is the error. -/
theorem Keyword.parse_of_ne {word : String} (h : ∀ k : Keyword, k.word ≠ word) :
    parse word = .error (.malformed (.unknownKeyword word)) := by
  rw [parse]
  split
  next k hk => exact absurd (word_of_ofWord? hk) (h k)
  next => rfl

namespace Command

/-! ### Reading -/

/-- What a text is read as. Each rule asks that those before it do not apply. -/
inductive Reads (text : String) : Except StatementError Command → Prop where
  /-- It is more than one statement. -/
  | several (h : IsSeveral text) : Reads text (.error (.malformed .severalStatements))
  /-- It is a single statement with fewer than two words. -/
  | tooShort {words : List String} (h : IsSingle text words) (hlength : words.length < 2) :
      Reads text (.error (.malformed .tooShort))
  /-- It has two words or more, and the first one is no keyword. -/
  | unknownKeyword {word : String} {arguments : List String} (h : IsSingle text (word :: arguments))
      (hne : arguments ≠ []) (hword : ∀ k : Keyword, k.word ≠ word) :
      Reads text (.error (.malformed (.unknownKeyword word)))
  /-- Its first word is a keyword, and the others are the arguments. -/
  | command {k : Keyword} {arguments : List String} (h : IsSingle text (k.word :: arguments))
      (hne : arguments ≠ []) : Reads text (.ok ⟨k, arguments⟩)

theorem parse_of_isSingle {text : String} {words : List String} (h : IsSingle text words) :
    parse text = ofWords words := by
  rw [parse, words?_eq_some_iff_isSingle.mpr h]

theorem ofWords_cons {word : String} {arguments : List String} (h : arguments ≠ []) :
    ofWords (word :: arguments) = (Keyword.parse word).map (⟨·, arguments⟩) := by
  obtain ⟨first, rest, rfl⟩ := List.exists_cons_of_ne_nil h
  rfl

/-- The rules leave nothing out. -/
theorem reads_parse (text : String) : Reads text (parse text) := by
  cases hwords : words? text with
  | none =>
    rw [parse, hwords]
    exact .several (words?_eq_none_iff_isSeveral.mp hwords)
  | some words =>
    have hsingle := words?_eq_some_iff_isSingle.mp hwords
    rw [parse_of_isSingle hsingle]
    match words, hsingle with
    | [], hsingle => exact .tooShort hsingle (by simp)
    | [_], hsingle => exact .tooShort hsingle (by simp)
    | word :: argument :: arguments, hsingle =>
      rw [ofWords_cons (List.cons_ne_nil argument arguments)]
      by_cases hword : ∃ k : Keyword, k.word = word
      · obtain ⟨k, rfl⟩ := hword
        rw [k.parse_word]
        exact .command hsingle (List.cons_ne_nil _ _)
      · rw [Keyword.parse_of_ne (not_exists.mp hword)]
        exact .unknownKeyword hsingle (List.cons_ne_nil _ _) (not_exists.mp hword)

/-- A text is read as the rules say, and so not more than one of them applies. -/
theorem Reads.parse_eq {text : String} {outcome : Except StatementError Command}
    (h : Reads text outcome) : parse text = outcome := by
  cases h with
  | several h => rw [parse, words?_eq_none_iff_isSeveral.mpr h]
  | @tooShort words h hlength =>
    rw [parse_of_isSingle h]
    match words, hlength with
    | [], _ => rfl
    | [_], _ => rfl
  | unknownKeyword h hne hword =>
    rw [parse_of_isSingle h, ofWords_cons hne, Keyword.parse_of_ne hword]
    rfl
  | @command k arguments h hne =>
    rw [parse_of_isSingle h, ofWords_cons hne, k.parse_word]
    rfl

theorem parse_eq_iff {text : String} {outcome : Except StatementError Command} :
    parse text = outcome ↔ Reads text outcome :=
  ⟨fun h => h ▸ reads_parse text, Reads.parse_eq⟩

/-- The words of a command are its keyword and its arguments, of which there is at least one. -/
theorem parse_eq_ok_iff {text : String} {c : Command} :
    parse text = .ok c ↔ IsSingle text (c.keyword.word :: c.arguments) ∧ c.arguments ≠ [] := by
  constructor
  · intro h
    cases parse_eq_iff.mp h with
    | command hsingle hne => exact ⟨hsingle, hne⟩
  · rintro ⟨h, hne⟩
    exact (Reads.command h hne).parse_eq

theorem words?_of_parse {statement : String} {c : Command} (h : parse statement = .ok c) :
    words? statement = some (c.keyword.word :: c.arguments) :=
  words?_eq_some_iff_isSingle.mpr (parse_eq_ok_iff.mp h).1

/-! ### Writing -/

/-- A keyword and its arguments, with single blanks between them, are a statement of that command. -/
theorem parse_intercalate (k : Keyword) {arguments : List String} (hne : arguments ≠ [])
    (h : ∀ argument ∈ arguments, IsTokenWord argument) :
    parse (" ".intercalate (k.word :: arguments)) = .ok ⟨k, arguments⟩ := by
  have hrenders := RendersWords.intercalate (List.cons_ne_nil k.word arguments)
  have htokens := hrenders.tokens_eq (List.forall_mem_cons.mpr ⟨k.isTokenWord_word, h⟩)
  exact parse_eq_ok_iff.mpr ⟨.inl htokens, hne⟩

/-- A separator at the end of a text without separators makes no difference. -/
theorem parse_append_separator {text : String} (h : ';' ∉ text.toList) :
    parse (text ++ ";") = parse text := by
  obtain ⟨words, hwords⟩ := exists_words?_of_not_mem h
  have htokens := (words?_eq_some_iff h).mp hwords
  have hsingle : IsSingle (text ++ ";") words := by
    refine .inr ?_
    have hsep : ";".toList = ';' :: [] := rfl
    rw [String.toList_append, hsep, tokens_append_separator, htokens, tokens]
  rw [parse_of_isSingle hsingle, parse_of_isSingle (.inl htokens)]

/-- **Commands are read exactly.** What a text is read as is what the first rule says that applies:
it is more than one statement, it has fewer than two words, its first word is no keyword, or it is the
command of this keyword with the other words as arguments. So it is a command if and only if it is a
single statement of two words or more of which the first is one of the seven keywords. Whether it is a
single statement is seen from its characters: behind a separator there are only blanks. The arguments
of a command are words. A command is read again from its keyword and its arguments with single blanks
between them, and also with a separator at the end; and a separator at the end of a text that has none
makes no difference. -/
theorem parsing_exact :
    (∀ (text : String) (outcome : Except StatementError Command),
      parse text = outcome ↔ Reads text outcome) ∧
    (∀ text : String, (∃ c, parse text = .ok c) ↔
      ∃ word arguments, IsSingle text (word :: arguments) ∧ arguments ≠ [] ∧
        word ∈ ["set", "add", "subtract", "multiply", "divide", "convert", "display"]) ∧
    (∀ (text : String) (words : List String),
      IsSingle text words ↔ (∀ word ∈ words, IsTokenWord word) ∧
        ∃ cs back, text.toList = cs ++ back ∧ RendersStatement words cs ∧
          (back = [] ∨ ∃ blanks, back = ';' :: blanks ∧ ∀ c ∈ blanks, isBlank c = true)) ∧
    (∀ text : String,
      IsSeveral text ↔
        ∃ before after, text.toList = before ++ ';' :: after ∧ ∃ c ∈ after, isBlank c = false) ∧
    (∀ (text : String) (c : Command), parse text = .ok c →
      IsSingle text (c.keyword.word :: c.arguments) ∧
      (∀ argument ∈ c.arguments,
        argument ≠ "" ∧ ';' ∉ argument.toList ∧ ∀ a ∈ argument.toList, isBlank a = false) ∧
      parse (" ".intercalate (c.keyword.word :: c.arguments)) = .ok c ∧
      parse (" ".intercalate (c.keyword.word :: c.arguments) ++ ";") = .ok c) ∧
    (∀ text : String, ';' ∉ text.toList → parse (text ++ ";") = parse text) := by
  refine ⟨fun text outcome => parse_eq_iff, fun text => ⟨?_, ?_⟩, fun text words => isSingle_iff,
    fun text => isSeveral_iff, fun text c h => ?_, fun text h => parse_append_separator h⟩
  · rintro ⟨⟨k, arguments⟩, h⟩
    obtain ⟨hsingle, hne⟩ := parse_eq_ok_iff.mp h
    exact ⟨k.word, arguments, hsingle, hne, Keyword.exists_word_eq_iff.mp ⟨k, rfl⟩⟩
  · rintro ⟨word, arguments, hsingle, hne, hword⟩
    obtain ⟨k, rfl⟩ := Keyword.exists_word_eq_iff.mpr hword
    exact ⟨_, (Reads.command hsingle hne).parse_eq⟩
  · obtain ⟨hsingle, hne⟩ := parse_eq_ok_iff.mp h
    have hwords := (isSingle_iff.mp hsingle).1
    have harguments := (List.forall_mem_cons.mp hwords).2
    have hjoined := parse_intercalate c.keyword hne harguments
    have hsep : ';' ∉ (" ".intercalate (c.keyword.word :: c.arguments)).toList :=
      (RendersWords.intercalate (List.cons_ne_nil _ _)).separator_not_mem hwords
    refine ⟨hsingle, fun argument hargument => ?_, hjoined, ?_⟩
    · have hword := harguments argument hargument
      exact ⟨hword.ne_empty, hword.not_mem (by decide), fun a ha =>
        (isWordPart_iff.mp (hword.isWordPart_eq a ha)).1⟩
    · rw [parse_append_separator hsep, hjoined]

/-- A separator at the end with blanks around it belongs to the command, which is then written without
them. -/
theorem parsing_exact_add :
    parse "\tadd  a\r\nXIV ; " = .ok ⟨.add, ["a", "XIV"]⟩ ∧
      parse "add a XIV" = .ok ⟨.add, ["a", "XIV"]⟩ ∧ parse "add a XIV;" = parse "add a XIV" := by
  obtain ⟨-, -, -, -, hcommand, hseparator⟩ := parsing_exact
  have h : parse "\tadd  a\r\nXIV ; " = .ok ⟨.add, ["a", "XIV"]⟩ := by cbv
  exact ⟨h, (hcommand _ _ h).2.2.1, hseparator "add a XIV" (by decide)⟩

end Command

end Roman
