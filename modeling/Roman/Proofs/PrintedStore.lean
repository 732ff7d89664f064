import Roman.Proofs.Answers
import Roman.Proofs.RoundTrips

/-!
# Stores that are read back from their text

The text of a store is not escaped: there is a line for each variable, with its name, an equals sign
between two blanks and the text of its value. It can be read nevertheless, if no name has a blank or
a line feed in it and all values have literals (`Variable.Legible`). Then a name ends at the first
blank of its line, and what stands behind the equals sign stands for the value, kind and all, as it
is a numeral or it is digits (`Variable.ofLine?_toText`).

The names that an interpreter knows were words of statements, and the values that its variables hold
have literals. So its store is read back from its text (`Store.toText_after_inj`).
-/

namespace Roman

/-! ### A variable and its line -/

/-- The variable that a line shows: its name stands before the first blank, and what its value is
written as, behind the equals sign. -/
def Variable.ofLine? (line : List Char) : Option Variable :=
  match line.dropWhile (· ≠ ' ') with
  | ' ' :: '=' :: ' ' :: literal =>
    (Store.empty.resolve (String.ofList literal)).toOption.map fun value =>
      ⟨String.ofList (line.takeWhile (· ≠ ' ')), value, value.kind⟩
  | _ => none

/-- A variable that can be read back from its line. -/
structure Variable.Legible (v : Variable) : Prop where
  /-- Its name has no blank in it. -/
  blank_not_mem : ' ' ∉ v.name.toList
  /-- Its name is written on one line. -/
  oneLine : OneLine v.name
  /-- Its value has a literal. -/
  isLiteral : v.value.IsLiteral
  /-- Its kind is the kind of its value. -/
  kind_eq : v.kind = v.value.kind

namespace Variable

variable {v : Variable}

theorem toList_toText (v : Variable) :
    v.toText.toList = v.name.toList ++ ' ' :: '=' :: ' ' :: v.value.toText.toList := by
  have htext : v.toText = v.name ++ " = " ++ v.value.toText := by
    rw [toText]
    rfl
  rw [htext, String.toList_append, String.toList_append, List.append_assoc]
  rfl

theorem toList_toText_ne_nil (v : Variable) : v.toText.toList ≠ [] := by
  rw [toList_toText]
  exact List.append_ne_nil_of_right_ne_nil _ (List.cons_ne_nil _ _)

/-- A legible variable is read back from its line. -/
theorem ofLine?_toText (h : v.Legible) : ofLine? v.toText.toList = some v := by
  have hname : ∀ c ∈ v.name.toList, decide (c ≠ ' ') = true := by
    intro c hc
    refine decide_eq_true ?_
    rintro rfl
    exact h.blank_not_mem hc
  -- so the first blank is the one behind the name
  rw [ofLine?, toList_toText, List.dropWhile_append_of_pos hname, List.takeWhile_append_of_pos hname,
    List.dropWhile_cons_of_neg (by decide), List.takeWhile_cons_of_neg (by decide), List.append_nil]
  show (Store.empty.resolve (String.ofList v.value.toText.toList)).toOption.map _ = _
  rw [String.ofList_toList, String.ofList_toList, Store.resolve_toText h.isLiteral]
  show some ⟨v.name, v.value, v.value.kind⟩ = some v
  rw [← h.kind_eq]

theorem Legible.oneLine_toText (h : v.Legible) : OneLine v.toText := by
  have hvalue : '\n' ∉ v.value.toText.toList := h.isLiteral.isTokenWord.not_mem (by decide)
  rw [OneLine, toList_toText, List.mem_append, not_or]
  exact ⟨h.oneLine, by simpa using hvalue⟩

end Variable

/-! ### A store and its text -/

namespace Store

/-- The store that a text shows, with the variables that its lines show; the empty text has no
line. -/
def ofText? (text : String) : Option Store :=
  if text = "" then some .empty
  else ((text.toList.splitOn '\n').mapM Variable.ofLine?).map fun vs => ⟨vs.map fun v => (v.name, v)⟩

/-- All variables of a store are legible and stand under their own names. -/
def Legible (s : Store) : Prop := ∀ e ∈ s.entries, e.2.name = e.1 ∧ e.2.Legible

/-- The lines of a text are the lines of its variables. -/
theorem Legible.splitOn_toText {s : Store} (h : s.Legible) (hne : s.entries ≠ []) :
    s.toText.toList.splitOn '\n' = s.entries.map fun e => e.2.toText.toList := by
  have hlines : s.toText.toList = ['\n'].intercalate (s.entries.map fun e => e.2.toText.toList) := by
    rw [toText, String.toList_intercalate, List.map_map]
    rfl
  rw [hlines]
  refine List.splitOn_intercalate '\n' (fun line hline => ?_) (List.map_eq_nil_iff.not.mpr hne)
  obtain ⟨e, he, rfl⟩ := List.mem_map.mp hline
  exact (h e he).2.oneLine_toText

/-- Only the store without a variable has the empty text, as no line is empty. -/
theorem Legible.toText_ne_empty {s : Store} (h : s.Legible) (hne : s.entries ≠ []) :
    s.toText ≠ "" := by
  intro htext
  have hsplit := h.splitOn_toText hne
  obtain ⟨e, rest, he⟩ := List.exists_cons_of_ne_nil hne
  rw [htext, he] at hsplit
  exact e.2.toList_toText_ne_nil (List.cons.inj hsplit).1.symm

/-- Reading line by line gives the variables of legible entries back. -/
theorem mapM_ofLine? {entries : List (String × Variable)} (h : ∀ e ∈ entries, e.2.Legible) :
    (entries.map fun e => e.2.toText.toList).mapM Variable.ofLine? = some (entries.map Prod.snd) := by
  induction entries with
  | nil => rfl
  | cons e rest ih =>
    obtain ⟨he, hrest⟩ := List.forall_mem_cons.mp h
    rw [List.map_cons, List.mapM_cons, Variable.ofLine?_toText he, ih hrest]
    rfl

/-- A legible store is read back from its text. -/
theorem ofText?_toText {s : Store} (h : s.Legible) : ofText? s.toText = some s := by
  by_cases hnil : s.entries = []
  · have hempty : s = .empty := congrArg Store.mk hnil
    rw [hempty]
    rfl
  · have hentries : (s.entries.map Prod.snd).map (fun v => (v.name, v)) = s.entries := by
      rw [List.map_map]
      refine (List.map_congr_left fun e he => ?_).trans (List.map_id _)
      exact Prod.ext (h e he).1 rfl
    rw [ofText?, if_neg (h.toText_ne_empty hnil), h.splitOn_toText hnil,
      mapM_ofLine? fun e he => (h e he).2, Option.map_some, hentries]

/-- Every store of an interpreter is legible. -/
theorem legible_after (calls : List Call) : (after calls).Legible := by
  rintro ⟨name, v⟩ hmem
  have hstands := (valid_after calls).standsAt hmem
  have hword : IsTokenWord v.name := by
    rw [hstands.name_eq]
    exact isTokenWord_of_mem_names (List.mem_map_of_mem hmem)
  exact ⟨hstands.name_eq, hword.not_mem (by decide), hword.oneLine, holdsLiterals_after calls _ hmem,
    hstands.kind_eq⟩

/-- **The text of a store says all that there is to say about it.** After any calls of an
interpreter, its store is read back from its text, with the names, the values and the kinds of its
variables. So the stores of two interpreters have the same text if and only if they are equal,
whatever calls there were. -/
theorem toText_after_inj :
    (∀ calls : List Call, ofText? (after calls).toText = some (after calls)) ∧
    ∀ calls others : List Call, (after calls).toText = (after others).toText ↔
      after calls = after others := by
  have hread (calls : List Call) : ofText? (after calls).toText = some (after calls) :=
    ofText?_toText (legible_after calls)
  refine ⟨hread, fun calls others => ⟨fun htext => ?_, congrArg toText⟩⟩
  exact Option.some.inj (by rw [← hread calls, htext, hread others])

/-- A numeral and an integer are read back, each with its kind. -/
example :
    let s := after [.execute "set b 7; set a X; set X 5"]
    s.toText = "a = X\nb = 7" ∧ ofText? "a = X\nb = 7" = some s := by
  intro s
  have hs : s = after [.execute "set b 7; set a X; set X 5"] := rfl
  constructor <;> (rw [hs]; cbv)

/-- A store that was filled by no interpreter may have names with a line feed in them, and then two
variables can look like a single one. -/
example :
    (empty.afterSets [("a", .integer 1), ("b", .integer 2)]).toText =
        (empty.afterSets [("a = 1\nb", .integer 2)]).toText ∧
      (empty.afterSets [("a", .integer 1), ("b", .integer 2)]).size ≠
        (empty.afterSets [("a = 1\nb", .integer 2)]).size := by
  constructor <;> decide

end Store

end Roman
