import Roman.Proofs.Lookahead

/-!
# Why a text is no numeral

The three reasons for which a text is refused, said without the scan (`Explains`): it is empty; it
has a character that is no symbol of numerals, and the first of these is reported; or it consists of
symbols only, and then it is cut where it went wrong. What stands before the cut is a numeral, and
no numeral at all begins with it and the next letter. A text is refused for a reason if and only if
this explains it (`Numeral.rejection_exact`).

The scan by positions, `rejectionByBytes?`, works on the bytes of the text, and every part that it
takes of them is checked: it has no result at all if a part is out of bounds or begins inside of a
character. It always has one, and the same (`Numeral.rejectionByBytes?_eq`).
-/

namespace Roman

/-! ### The three reasons -/

/-- The characters that numerals are written with. -/
def symbolChars : List Char := ['M', 'D', 'C', 'L', 'X', 'V', 'I']

/-- What a reason says about the text that is refused for it. -/
inductive Explains (text : String) : Rejection → Prop where
  /-- The text is empty. -/
  | empty (h : text = "") : Explains text .empty
  /-- The first character that is no symbol stands after as many bytes as are reported. -/
  | foreign {before after : String} {c : Char} (h : text = before ++ String.singleton c ++ after)
      (hbefore : ∀ d ∈ before.toList, d ∈ symbolChars) (hc : c ∉ symbolChars) :
      Explains text (.foreign c before.utf8ByteSize)
  /-- The text is a numeral and what is reported, and no numeral begins with the first and the next
  letter; the place is the lowest one that is not zero in the first. -/
  | leftover {before : String} {n : Numeral} {a : Letter} {rest : Spelling} {after : Place}
      (h : text = before ++ Spelling.text (a :: rest)) (hne : before ≠ "")
      (hbefore : Numeral.parse before = .ok n)
      (hstuck : ∀ word, Numeral.accepts word = true →
        ¬ (before ++ String.singleton a.char).toList <+: word.toList)
      (hafter : after.IsLowest n.decimal) : Explains text (.leftover (a :: rest) after)

theorem mem_symbolChars_iff {c : Char} : c ∈ symbolChars ↔ ∃ a : Letter, a.char = c := by
  constructor
  · intro h
    simp only [symbolChars, List.mem_cons, List.not_mem_nil, or_false] at h
    obtain rfl | rfl | rfl | rfl | rfl | rfl | rfl := h
    exacts [⟨.M, rfl⟩, ⟨.D, rfl⟩, ⟨.C, rfl⟩, ⟨.L, rfl⟩, ⟨.X, rfl⟩, ⟨.V, rfl⟩, ⟨.I, rfl⟩]
  · rintro ⟨a, rfl⟩
    cases a <;> decide

theorem Letter.ofChar?_eq_none_iff {c : Char} : ofChar? c = none ↔ c ∉ symbolChars := by
  rw [mem_symbolChars_iff]
  constructor
  · rintro h ⟨a, rfl⟩
    rw [ofChar?_char] at h
    cases h
  · intro h
    cases ha : ofChar? c with
    | none => rfl
    | some a => exact absurd ⟨a, char_of_ofChar? ha⟩ h

namespace Spelling

/-- Characters that are all symbols are those of a spelling. -/
theorem exists_chars_iff {cs : List Char} :
    (∃ s : Spelling, s.chars = cs) ↔ ∀ c ∈ cs, c ∈ symbolChars := by
  simp only [mem_symbolChars_iff]
  constructor
  · rintro ⟨s, rfl⟩ c hc
    obtain ⟨a, -, ha⟩ := List.mem_map.mp hc
    exact ⟨a, ha⟩
  · intro h
    induction cs with
    | nil => exact ⟨[], rfl⟩
    | cons c cs ih =>
      obtain ⟨⟨a, ha⟩, hcs⟩ := List.forall_mem_cons.mp h
      obtain ⟨s, hs⟩ := ih hcs
      exact ⟨a :: s, by rw [chars_cons, ha, hs]⟩

/-- Characters are refused for the first one that is no symbol, and for nothing else. -/
theorem ofChars_eq_error_iff {cs : List Char} :
    ∀ {start : Nat} {r : Rejection}, ofChars start cs = .error r ↔
      ∃ before c after, cs = before ++ c :: after ∧ (∀ d ∈ before, d ∈ symbolChars) ∧
        c ∉ symbolChars ∧ r = .foreign c (start + String.utf8Len before) := by
  induction cs with
  | nil =>
    intro start r
    exact iff_of_false nofun fun ⟨before, c, after, h, _⟩ => by simp at h
  | cons c cs ih =>
    intro start r
    rw [ofChars]
    cases ha : Letter.ofChar? c with
    | none =>
      have hc := Letter.ofChar?_eq_none_iff.mp ha
      constructor
      · intro h
        cases h
        exact ⟨[], c, cs, rfl, by simp, hc, rfl⟩
      · rintro ⟨before, c', after, hcs, hbefore, -, rfl⟩
        cases before with
        | nil =>
          cases hcs
          rfl
        | cons d before =>
          cases hcs
          exact absurd (hbefore c List.mem_cons_self) hc
    | some a =>
      have hc : c ∈ symbolChars := mem_symbolChars_iff.mpr ⟨a, Letter.char_of_ofChar? ha⟩
      rw [Outcome.map_eq_error_iff, ih]
      constructor
      · rintro ⟨before, c', after, rfl, hbefore, hc', rfl⟩
        refine ⟨c :: before, c', after, rfl, List.forall_mem_cons.mpr ⟨hc, hbefore⟩, hc', ?_⟩
        rw [String.utf8Len_cons]
        congr 1
        omega
      · rintro ⟨before, c', after, hcs, hbefore, hc', rfl⟩
        cases before with
        | nil =>
          cases hcs
          exact absurd hc hc'
        | cons d before =>
          cases hcs
          refine ⟨before, c', after, rfl, fun d hd => hbefore d (List.mem_cons_of_mem _ hd), hc', ?_⟩
          rw [String.utf8Len_cons]
          congr 1
          omega

/-- No numeral begins with the text of a spelling and one more letter if and only if no well-formed
spelling begins with these letters. -/
theorem forall_not_prefix_iff {x : Spelling} {b : Letter} :
    (∀ word, Numeral.accepts word = true →
      ¬ (x.text ++ String.singleton b.char).toList <+: word.toList) ↔
      ∀ z, ¬ WellFormed (x ++ b :: z) := by
  have hchars : (x.text ++ String.singleton b.char).toList = chars (x ++ [b]) := by
    rw [String.toList_append, text, String.toList_ofList, chars_append, String.toList_singleton]
    rfl
  simp only [hchars, Numeral.accepts_eq_true_iff, ofText_eq_ok_iff]
  constructor
  · intro h z hz
    refine h _ ⟨⟨_, hz⟩, rfl⟩ ⟨chars z, ?_⟩
    rw [text, String.toList_ofList, ← chars_append, List.append_assoc]
    rfl
  · rintro h _ ⟨⟨s, hs⟩, rfl⟩ ⟨after, hafter⟩
    have hsymbols : ∀ c ∈ after, c ∈ symbolChars := fun c hc => by
      refine exists_chars_iff.mp ⟨s, rfl⟩ c ?_
      rw [text, String.toList_ofList] at hafter
      rw [← hafter]
      exact List.mem_append_right _ hc
    obtain ⟨z, rfl⟩ := exists_chars_iff.mpr hsymbols
    rw [text, String.toList_ofList, ← chars_append] at hafter
    have hs_eq := chars_injective hafter
    rw [List.append_assoc] at hs_eq
    exact h z (hs_eq ▸ hs)

end Spelling

namespace Numeral

theorem toList_canonical_append (n : Numeral) (s : Spelling) :
    (n.canonical ++ s.text).toList = Spelling.chars (n.spelling ++ s) := by
  rw [canonical, Spelling.text, Spelling.text, ← String.ofList_append, String.toList_ofList,
    Spelling.chars_append]

/-- A text is refused for a reason if and only if this explains it. -/
theorem parse_eq_error_iff {text : String} {r : Rejection} :
    parse text = .error r ↔ Explains text r := by
  rw [parse, Outcome.map_eq_error_iff, Spelling.ofText]
  constructor
  · intro h
    cases hchars : Spelling.ofChars 0 text.toList with
    | error e =>
      rw [hchars] at h
      cases h
      obtain ⟨before, c, after, htext, hbefore, hc, rfl⟩ := Spelling.ofChars_eq_error_iff.mp hchars
      rw [Nat.zero_add, ← String.utf8ByteSize_ofList]
      have hsplit : text = String.ofList before ++ String.singleton c ++ String.ofList after := by
        rw [← String.toList_inj, htext]
        simp
      exact .foreign hsplit (by simpa using hbefore) hc
    | ok s =>
      rw [hchars] at h
      have htext : text = s.text := by
        rw [Spelling.text, Spelling.chars_of_ofChars hchars, String.ofList_toList]
      rcases Spelling.check_eq_error_iff.mp h with
        ⟨rfl, rfl⟩ | ⟨x, b, y, after, rfl, hx, hstuck, hafter, rfl⟩
      · exact .empty htext
      · have hn : x = (ofSpelling ⟨x, hx⟩).spelling :=
          (ofSpelling_eq_iff (s := ⟨x, hx⟩)).mp rfl
        have hsplit : text = x.text ++ Spelling.text (b :: y) := by
          rw [htext, Spelling.text, Spelling.chars_append, String.ofList_append]
          rfl
        have hbefore : parse x.text = .ok (ofSpelling ⟨x, hx⟩) :=
          parse_eq_ok_iff.mpr (congrArg Spelling.text hn)
        have hne : x.text ≠ "" := mt Spelling.text_eq_empty_iff.mp hx.1
        refine .leftover hsplit hne hbefore (Spelling.forall_not_prefix_iff.mpr hstuck) ?_
        rwa [← Spelling.value_spelling, ← hn]
  · intro h
    cases h with
    | empty h =>
      rw [h]
      rfl
    | @foreign before after c h hbefore hc =>
      have hchars : Spelling.ofChars 0 text.toList = .error (.foreign c before.utf8ByteSize) := by
        refine Spelling.ofChars_eq_error_iff.mpr ⟨before.toList, c, after.toList, ?_, hbefore, hc, ?_⟩
        · rw [h]
          simp
        · rw [Nat.zero_add, ← String.utf8ByteSize_ofList, String.ofList_toList]
      rw [hchars]
      rfl
    | @leftover before n a rest after h _ hbefore hstuck hafter =>
      obtain rfl := parse_eq_ok_iff.mp hbefore
      rw [h, toList_canonical_append, Spelling.ofChars_chars]
      refine Spelling.check_eq_error_iff.mpr (.inr ⟨n.spelling, a, rest, after, rfl,
        Spelling.wellFormed_spelling n, Spelling.forall_not_prefix_iff.mp hstuck, ?_, rfl⟩)
      rwa [Spelling.value_spelling]

end Numeral

/-- Which of the three reasons it is that explains why a text is refused. -/
theorem Explains.reasons {text : String} {r : Rejection} (h : Explains text r) :
    (r = .empty ↔ text = "") ∧
    ((∃ c position, r = .foreign c position) ↔ ∃ c ∈ text.toList, c ∉ symbolChars) ∧
    ((∃ rest after, r = .leftover rest after) ↔ text ≠ "" ∧ ∀ c ∈ text.toList, c ∈ symbolChars) := by
  cases h with
  | empty h =>
    subst h
    simp
  | @foreign before after c h hbefore hc =>
    have hmem : c ∈ text.toList := by simp [h]
    have hne : text ≠ "" := by
      rintro rfl
      simp at hmem
    refine ⟨iff_of_false (by simp) hne, iff_of_true ⟨_, _, rfl⟩ ⟨c, hmem, hc⟩,
      iff_of_false (by simp) ?_⟩
    exact fun hall => hc (hall.2 c hmem)
  | @leftover before n a rest after h _ hbefore hstuck hafter =>
    have hchars : text.toList = Spelling.chars (n.spelling ++ a :: rest) := by
      rw [h, Numeral.parse_eq_ok_iff.mp hbefore, Numeral.toList_canonical_append]
    have hall : ∀ c ∈ text.toList, c ∈ symbolChars := Spelling.exists_chars_iff.mp ⟨_, hchars.symm⟩
    have hne : text ≠ "" := by
      rintro rfl
      simp [Spelling.chars] at hchars
    refine ⟨iff_of_false (by simp) hne, iff_of_false (by simp) ?_,
      iff_of_true ⟨_, _, rfl⟩ ⟨hne, hall⟩⟩
    rintro ⟨c, hc, hforeign⟩
    exact hforeign (hall c hc)

/-! ### Scanning the bytes of a text -/

/-- The bytes of characters. -/
def utf8 (cs : List Char) : List UInt8 := cs.flatMap String.utf8EncodeChar

/-- The bytes from a position on; there are none to give if the position is beyond the end. -/
def bytesFrom? (bytes : List UInt8) (position : Nat) : Option (List UInt8) :=
  if position ≤ bytes.length then some (bytes.drop position) else none

/-- The characters from a byte position on; there are none to give if the position is beyond the end
or inside of a character. -/
def charsFrom? : List Char → Nat → Option (List Char)
  | cs, 0 => some cs
  | [], _ + 1 => none
  | c :: cs, position + 1 =>
    if c.utf8Size ≤ position + 1 then charsFrom? cs (position + 1 - c.utf8Size) else none

/-- The byte that a letter is written as. -/
def Letter.byte (a : Letter) : UInt8 := a.char.val.toUInt8

/-- How often a byte stands at the front, counted up to three. -/
def byteRepeats (b : UInt8) (bytes : List UInt8) : Nat := ((bytes.take 3).takeWhile (· == b)).length

/-- How many bytes at the front are a digit without a subtraction. -/
def Place.plainByteWidth (p : Place) : List UInt8 → Nat
  | a :: bytes =>
    if p.five?.map Letter.byte = some a then byteRepeats p.one.byte bytes + 1
    else byteRepeats p.one.byte (a :: bytes)
  | [] => 0

/-- How many bytes at the front belong to a place. -/
def Place.byteWidth (p : Place) : List UInt8 → Nat
  | a :: b :: bytes =>
    if a = p.one.byte ∧ (p.five?.map Letter.byte = some b ∨ p.ten?.map Letter.byte = some b) then 2
    else p.plainByteWidth (a :: b :: bytes)
  | bytes => p.plainByteWidth bytes

/-- The scan of places from a position on: where it stops, and the last place that took a byte. Each
place looks at the bytes from its position on, and there is no result if one of these is beyond the
end. -/
def scanBytes? (bytes : List UInt8) : List Place → Nat → Place → Option (Nat × Place)
  | [], position, last => some (position, last)
  | p :: ps, position, last =>
    (bytesFrom? bytes position).bind fun rest =>
      if p.byteWidth rest = 0 then scanBytes? bytes ps position last
      else scanBytes? bytes ps (position + p.byteWidth rest) p

/-- The first character that is no symbol, with its position in bytes. -/
def foreign? (position : Nat) : List Char → Option (Char × Nat)
  | [] => none
  | c :: cs => if c ∈ symbolChars then foreign? (position + c.utf8Size) cs else some (c, position)

/-- Why a text is refused, if it is, found by positions in its bytes. There is no result if a part of
the text that is looked at or reported is out of bounds or begins inside of a character. -/
def rejectionByBytes? (text : String) : Option (Option Rejection) :=
  if text = "" then some (some .empty)
  else
    match foreign? 0 text.toList with
    | some (c, position) => some (some (.foreign c position))
    | none =>
      (scanBytes? (utf8 text.toList) Place.all 0 .thousands).bind fun (position, last) =>
        if position < (utf8 text.toList).length then
          (charsFrom? text.toList position).map fun remainder =>
            some (.leftover (remainder.filterMap Letter.ofChar?) last)
        else some none

theorem Letter.byte_injective : Function.Injective Letter.byte := by
  intro a b
  cases a <;> cases b <;> decide

/-- Bytes of letters are counted as the letters are. -/
theorem byteRepeats_map (a : Letter) (s : Spelling) :
    byteRepeats a.byte (s.map Letter.byte) = Place.repeats a s := by
  have hbyte : (fun b => b == a.byte) ∘ Letter.byte = fun b => b == a := by
    funext b
    rw [Function.comp_apply, Bool.eq_iff_iff, beq_iff_eq, beq_iff_eq, Letter.byte_injective.eq_iff]
  rw [byteRepeats, ← List.map_take, List.takeWhile_map, List.length_map, hbyte, Place.repeats]

namespace Place

variable (p : Place)

theorem map_byte_eq_some_iff {letter? : Option Letter} {a : Letter} :
    letter?.map Letter.byte = some a.byte ↔ letter? = some a := by
  rw [← Option.map_some, (Option.map_injective Letter.byte_injective).eq_iff]

theorem plainByteWidth_map (s : Spelling) :
    p.plainByteWidth (s.map Letter.byte) = p.plainWidth s := by
  cases s with
  | nil => rfl
  | cons a s =>
    rw [List.map_cons, plainByteWidth, plainWidth]
    simp only [map_byte_eq_some_iff, byteRepeats_map, ← List.map_cons]

/-- As many bytes belong to a place as letters do. -/
theorem byteWidth_map (s : Spelling) : p.byteWidth (s.map Letter.byte) = p.width s := by
  match s with
  | [] => rfl
  | [a] => exact p.plainByteWidth_map [a]
  | a :: b :: s =>
    have hplain := p.plainByteWidth_map (a :: b :: s)
    rw [List.map_cons, List.map_cons] at hplain ⊢
    rw [byteWidth, width, hplain]
    simp only [map_byte_eq_some_iff, Letter.byte_injective.eq_iff]

end Place

/-- The scan by positions has a result, and stops where the scan of the letters does. -/
theorem exists_scanBytes? {s : Spelling} (ps : List Place) :
    ∀ {position : Nat} {last : Place}, position ≤ s.length →
      ∃ stop ≤ s.length, scanBytes? (s.map Letter.byte) ps position last =
          some (stop, (ps.foldl Scan.step ⟨s.drop position, last⟩).last) ∧
        (ps.foldl Scan.step ⟨s.drop position, last⟩).rest = s.drop stop := by
  induction ps with
  | nil => exact fun {position last} h => ⟨position, h, rfl, rfl⟩
  | cons p ps ih =>
    intro position last h
    have hwidth := p.width_le_length (s.drop position)
    rw [List.length_drop] at hwidth
    rw [scanBytes?, bytesFrom?, List.length_map, if_pos h, Option.bind_some, ← List.map_drop,
      p.byteWidth_map, List.foldl_cons, Scan.step]
    split
    next => exact ih h
    next =>
      rw [List.drop_drop]
      exact ih (by omega)

theorem charsFrom?_chars (x y : Spelling) :
    charsFrom? (Spelling.chars (x ++ y)) x.length = some (Spelling.chars y) := by
  induction x with
  | nil => cases y <;> rfl
  | cons a x ih =>
    have ha : a.char.utf8Size = 1 := by cases a <;> rfl
    rw [List.cons_append, Spelling.chars_cons, List.length_cons, charsFrom?, ha, if_pos (by omega)]
    exact ih

/-- The scan of a spelling, by positions in its bytes. -/
theorem exists_scanBytes?_scan (s : Spelling) :
    ∃ stop ≤ s.length,
      scanBytes? (s.map Letter.byte) Place.all 0 .thousands = some (stop, s.scan.last) ∧
        s.scan.rest = s.drop stop :=
  exists_scanBytes? Place.all (Nat.zero_le s.length)

theorem Spelling.filterMap_ofChar?_chars (s : Spelling) : s.chars.filterMap Letter.ofChar? = s := by
  rw [Spelling.chars, List.filterMap_map]
  exact (List.filterMap_congr fun a _ => a.ofChar?_char).trans List.filterMap_some

theorem utf8_chars (s : Spelling) : utf8 s.chars = s.map Letter.byte := by
  rw [utf8, Spelling.chars, List.flatMap_map, List.map_eq_flatMap]
  refine List.flatMap_congr fun a _ => ?_
  cases a <;> rfl

theorem ofChars_of_foreign? {cs : List Char} {c : Char} {i : Nat} :
    ∀ {position : Nat}, foreign? position cs = some (c, i) →
      Spelling.ofChars position cs = .error (.foreign c i) := by
  induction cs with
  | nil => exact nofun
  | cons d cs ih =>
    intro position h
    rw [foreign?] at h
    rw [Spelling.ofChars]
    split at h
    next hd =>
      obtain ⟨a, rfl⟩ := mem_symbolChars_iff.mp hd
      rw [Letter.ofChar?_char]
      exact Outcome.map_eq_error_iff.mpr (ih h)
    next hd =>
      cases h
      rw [Letter.ofChar?_eq_none_iff.mpr hd]

theorem exists_chars_of_foreign? {cs : List Char} :
    ∀ {position : Nat}, foreign? position cs = none → ∃ s : Spelling, s.chars = cs := by
  induction cs with
  | nil => exact fun _ => ⟨[], rfl⟩
  | cons d cs ih =>
    intro position h
    rw [foreign?] at h
    split at h
    next hd =>
      obtain ⟨a, rfl⟩ := mem_symbolChars_iff.mp hd
      obtain ⟨s, rfl⟩ := ih h
      exact ⟨a :: s, rfl⟩
    next => cases h

namespace Numeral

/-- Why a text is refused, if it is. -/
def rejection? (text : String) : Option Rejection :=
  match parse text with
  | .ok _ => none
  | .error r => some r

theorem rejection?_eq (text : String) :
    rejection? text =
      match Spelling.ofText text with
      | .ok _ => none
      | .error r => some r := by
  rw [rejection?, parse]
  cases Spelling.ofText text <;> rfl

/-- **Every part of a text that is looked at is there.** The scan of the bytes always has a result,
and it is the reason for which the text is refused. -/
theorem rejectionByBytes?_eq (text : String) : rejectionByBytes? text = some (rejection? text) := by
  rw [rejectionByBytes?, rejection?_eq, Spelling.ofText]
  by_cases hempty : text = ""
  · rw [if_pos hempty, hempty]
    rfl
  rw [if_neg hempty]
  cases hforeign : foreign? 0 text.toList with
  | some found =>
    obtain ⟨c, position⟩ := found
    rw [ofChars_of_foreign? hforeign]
    rfl
  | none =>
    obtain ⟨s, hs⟩ := exists_chars_of_foreign? hforeign
    have hne : s ≠ [] := by
      rintro rfl
      exact hempty (String.toList_eq_nil_iff.mp hs.symm)
    obtain ⟨stop, hstop, hscan, hrest⟩ := exists_scanBytes?_scan s
    have hcheck : Spelling.ofChars 0 s.chars >>= Spelling.check = Spelling.check s := by
      rw [Spelling.ofChars_chars]
      rfl
    rw [← hs, utf8_chars, hscan, hcheck, Spelling.check, dif_neg hne, Option.bind_some]
    dsimp only
    rw [List.length_map]
    by_cases hnil : s.scan.rest = []
    · have hend : s.length ≤ stop := List.drop_eq_nil_iff.mp (hrest ▸ hnil)
      rw [dif_pos hnil, if_neg (Nat.not_lt.mpr hend)]
    · have hlt : stop < s.length := by
        refine Nat.lt_of_not_le fun hle => hnil ?_
        rw [hrest, List.drop_eq_nil_iff.mpr hle]
      have hchars := charsFrom?_chars (s.take stop) (s.drop stop)
      rw [List.take_append_drop, List.length_take, Nat.min_eq_left hstop, ← hrest] at hchars
      rw [dif_neg hnil, if_pos hlt, hchars, Option.map_some, Spelling.filterMap_ofChar?_chars]

/-- **Rejections say exactly what is wrong.** A text is refused for a reason if and only if this
explains it. So the reason is that the text is empty if and only if it is; that a character is foreign
if and only if there is one that is no symbol; and that letters are left over in every other case.
Scanning the bytes of the text gives the same reason, and every part that is looked at or reported on
the way is within the text and begins where a character does. -/
theorem rejection_exact :
    (∀ (text : String) (r : Rejection), parse text = .error r ↔ Explains text r) ∧
    (∀ (text : String) (r : Rejection), parse text = .error r →
      (r = .empty ↔ text = "") ∧
      ((∃ c position, r = .foreign c position) ↔ ∃ c ∈ text.toList, c ∉ symbolChars) ∧
      ((∃ rest after, r = .leftover rest after) ↔
        text ≠ "" ∧ ∀ c ∈ text.toList, c ∈ symbolChars)) ∧
    ∀ text : String, rejectionByBytes? text = some (rejection? text) := by
  exact ⟨fun text r => parse_eq_error_iff, fun text r h => (parse_eq_error_iff.mp h).reasons,
    rejectionByBytes?_eq⟩

/-- Ninety is complete, and an `X` does not go on. -/
theorem rejection_exact_ninety :
    parse "XCXIV" = .error (.leftover [.X, .I, .V] .tens) ∧
      Explains "XCXIV" (.leftover [.X, .I, .V] .tens) ∧ (∀ c ∈ "XCXIV".toList, c ∈ symbolChars) ∧
      parse "XCé" = .error (.foreign 'é' 2) ∧ ∃ c ∈ "XCé".toList, c ∉ symbolChars := by
  have hninety : parse "XCXIV" = .error (.leftover [.X, .I, .V] .tens) := by rfl
  have haccent : parse "XCé" = .error (.foreign 'é' 2) := by rfl
  obtain ⟨hexplains, hreasons, -⟩ := rejection_exact
  exact ⟨hninety, (hexplains _ _).mp hninety, ((hreasons _ _ hninety).2.2.mp ⟨_, _, rfl⟩).2, haccent,
    (hreasons _ _ haccent).2.1.mp ⟨_, _, rfl⟩⟩

end Numeral

end Roman
