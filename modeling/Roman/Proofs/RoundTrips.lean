import Roman.Proofs.ErrorSurface
import Roman.Proofs.LastWrite
import Roman.Proofs.Parsing
import Roman.Proofs.Substitution

/-!
# Texts that can be read again

Statements answer with texts, and texts can be used as tokens. A value that has a literal, that is a
numeral or an integer that is not negative (`Value.IsLiteral`), is what its text stands for in every
store, whatever variables there are (`Store.resolve_toText`): the text is a numeral or digits, and
these are never looked up.

A negative integer has no literal. It can be computed, and it can be shown, but no token stands for
it: tokens stand for literals and for what variables hold, and variables hold what tokens stood for
when they were set (`Store.holdsLiterals_after`). So in a store of an interpreter every token stands
for a value that has a literal, and showing it or converting it gives a text that can be read again
(`texts_roundTrip`).
-/

namespace Roman

/-! ### Values that have a literal -/

/-- A value that is written as a literal. -/
inductive Value.IsLiteral : Value → Prop where
  /-- A numeral is written as a numeral. -/
  | numeral (n : Numeral) : IsLiteral (.numeral n)
  /-- An integer is written with digits, unless it is negative. -/
  | integer {i : Int64} (h : 0 ≤ i.toInt) : IsLiteral (.integer i)

namespace Store

/-- Digits stand for their integer, whatever the store holds. -/
theorem resolve_toString {n : Nat} (h : (n : Int) ≤ Int64.maxValue.toInt) (s : Store) :
    s.resolve (toString n) = .ok (.integer (Int64.ofNat n)) := by
  rw [resolve]
  cases hparse : Numeral.parse (toString n) with
  | ok m => exact absurd (Numeral.parse_eq_ok_iff.mp hparse).symm (m.canonical_ne_toString n)
  | error r =>
    rw [natural?_toString]
    exact integerOfLiteral_eq_ok_iff.mpr ⟨h, rfl⟩

/-- The text of a value that has a literal stands for the value, whatever the store holds. -/
theorem resolve_toText {v : Value} (h : v.IsLiteral) (s : Store) : s.resolve v.toText = .ok v := by
  cases h with
  | numeral n => rw [resolve, Value.toText, Numeral.parse_eq_ok_iff.mpr rfl]
  | @integer i h =>
    obtain ⟨n, hn⟩ := Int.eq_ofNat_of_zero_le h
    have htext : (Value.integer i).toText = toString n := by
      rw [Value.toText, hn]
      rfl
    have hmax : (n : Int) ≤ Int64.maxValue.toInt := by
      have hlt := i.toInt_lt
      exact le_maxValue_iff.mpr (by omega)
    have hi : Int64.ofNat n = i := Int64.toInt_inj.mp ((toInt_ofNat hmax).trans hn.symm)
    rw [htext, resolve_toString hmax, hi]

/-- All values of a store have literals. -/
def HoldsLiterals (s : Store) : Prop := ∀ e ∈ s.entries, e.2.value.IsLiteral

theorem HoldsLiterals.isLiteral_of_resolve {s : Store} (hs : s.HoldsLiterals) {token : String}
    {value : Value} (h : s.resolve token = .ok value) : value.IsLiteral := by
  rw [resolve] at h
  split at h
  next n _ =>
    cases h
    exact .numeral n
  next =>
    split at h
    next n _ =>
      obtain ⟨hmax, rfl⟩ := integerOfLiteral_eq_ok_iff.mp h
      refine .integer ?_
      rw [toInt_ofNat hmax]
      exact Int.natCast_nonneg n
    next =>
      obtain ⟨v, hv, rfl⟩ := Outcome.map_eq_ok_iff.mp h
      exact hs _ (mem_of_find? ((s.get_eq_ok_iff token v).mp hv))

/-- An assignment stores what a token stood for. -/
theorem HoldsLiterals.put {s : Store} {name token : String} {value : Value} {bound : Variable}
    (hs : s.HoldsLiterals) (hvalue : s.resolve token = .ok value)
    (hbound : Variable.make name value = .ok bound) : (s.put name bound).HoldsLiterals := by
  intro e he
  rcases mem_insertEntry he with rfl | he
  · obtain ⟨-, -, rfl⟩ := Variable.make_eq_ok_iff.mp hbound
    exact hs.isLiteral_of_resolve hvalue
  · exact hs e he

/-- Every value in a store of an interpreter has a literal. -/
theorem holdsLiterals_after (calls : List Call) : (after calls).HoldsLiterals :=
  after_induction HoldsLiterals.put (List.forall_mem_nil _) calls

end Store

/-! ### Converting there and back -/

/-- What the other form of a value is converted to is the value itself. -/
theorem Command.converted_converted {v w : Value} (hv : v.IsLiteral) (h : converted v = .ok w) :
    w.IsLiteral ∧ converted w = .ok v := by
  cases hv with
  | numeral n =>
    cases h
    have hi := n.toInt_ofNat_decimal
    refine ⟨.integer (by omega), ?_⟩
    rw [converted, Numeral.ofInt_eq_ok_iff.mpr hi.symm]
    rfl
  | @integer i hi =>
    obtain ⟨n, hn, rfl⟩ := Outcome.map_eq_ok_iff.mp h
    have hdecimal := Numeral.ofInt_eq_ok_iff.mp hn
    refine ⟨.numeral n, ?_⟩
    rw [converted, Int64.toInt_inj.mp (n.toInt_ofNat_decimal.trans hdecimal)]

/-- A value that has a literal is not converted if it is an integer out of range, and only then. -/
theorem Command.converted_eq_error_iff {v : Value} (hv : v.IsLiteral) {f : Fault} :
    converted v = .error f ↔
      ∃ i, v = .integer i ∧ (i.toInt < 1 ∨ 3999 < i.toInt) ∧ f = .range i.toInt := by
  cases hv with
  | numeral n => simp [converted]
  | @integer i _ =>
    rw [converted, Outcome.map_eq_error_iff, Numeral.ofInt_eq_error_iff]
    constructor
    · rintro ⟨rfl, hrange⟩
      exact ⟨i, rfl, hrange, rfl⟩
    · rintro ⟨j, hj, hrange, rfl⟩
      cases hj
      exact ⟨rfl, hrange⟩

/-! ### Tokens are words -/

/-- The name of a variable that an interpreter holds was a word of a statement. -/
theorem Store.isTokenWord_of_mem_names {calls : List Call} {name : String}
    (h : name ∈ (after calls).names) : IsTokenWord name := by
  obtain ⟨m, -, token, value, hassigns⟩ := mem_names_after_iff.mp h
  refine isTokenWord_of_words? (Command.words?_of_parse hassigns.parse_eq) name ?_
  exact List.mem_cons_of_mem _ List.mem_cons_self

theorem isWordPart_of_isDigit {c : Char} (h : c.isDigit = true) : isWordPart c = true := by
  refine isWordPart_iff.mpr ⟨?_, ?_⟩
  · rw [← Bool.not_eq_true]
    intro hblank
    simp only [isBlank, Bool.or_eq_true, decide_eq_true_eq] at hblank
    rcases hblank with (((rfl | rfl) | rfl) | rfl) | rfl <;> exact absurd h (by decide)
  · refine decide_eq_false ?_
    rintro rfl
    exact absurd h (by decide)

theorem isTokenWord_of_isDigits {text : String} (h : isDigits text = true) : IsTokenWord text := by
  obtain ⟨hne, hdigits⟩ := isDigits_iff.mp h
  exact ⟨hne, fun c hc => isWordPart_of_isDigit (hdigits c hc)⟩

theorem Numeral.isTokenWord_canonical (n : Numeral) : IsTokenWord n.canonical where
  ne_empty := n.canonical_ne_empty
  isWordPart_eq c hc := by
    rw [toList_canonical, List.mem_map] at hc
    obtain ⟨a, -, rfl⟩ := hc
    cases a <;> decide

/-- What stands for a value in a store of an interpreter is a word, and so it may be an argument. -/
theorem isTokenWord_of_resolve {calls : List Call} {token : String} {v : Value}
    (h : (Store.after calls).resolve token = .ok v) : IsTokenWord token := by
  rw [Store.resolve] at h
  split at h
  next n hn =>
    rw [Numeral.parse_eq_ok_iff.mp hn]
    exact n.isTokenWord_canonical
  next =>
    rw [natural?] at h
    by_cases hdigits : isDigits token = true
    · exact isTokenWord_of_isDigits hdigits
    · rw [if_neg hdigits] at h
      obtain ⟨bound, hbound, -⟩ := Outcome.map_eq_ok_iff.mp h
      have hname : token ∈ (Store.after calls).names := by
        rw [← Store.find?_isSome_iff, (Store.get_eq_ok_iff _ _ _).mp hbound]
        rfl
      exact Store.isTokenWord_of_mem_names hname

theorem Value.IsLiteral.isTokenWord {v : Value} (h : v.IsLiteral) : IsTokenWord v.toText := by
  have hempty : (Store.after []).resolve v.toText = .ok v := Store.resolve_toText h _
  exact isTokenWord_of_resolve hempty

/-! ### Statements that are written -/

/-- The statement with a keyword and one token. -/
def unary (k : Keyword) (token : String) : String := k.word ++ " " ++ token

theorem parse_unary (k : Keyword) {token : String} (h : IsTokenWord token) :
    Command.parse (unary k token) = .ok ⟨k, [token]⟩ := by
  have htext : unary k token = " ".intercalate [k.word, token] := rfl
  rw [htext]
  exact Command.parse_intercalate k (by simp) (by simpa using h)

section

variable {s : Store} {token : String} {v : Value} (htoken : IsTokenWord token)
  (hv : s.resolve token = .ok v)

include htoken hv

theorem outcome_display :
    (executeStatement (unary .display token) s).outcome = .ok (some (.text v.toText)) := by
  rw [outcome_of_parse (parse_unary .display htoken)]
  show (Command.display _ s).outcome = _
  rw [Command.display_eq]
  dsimp only
  rw [hv]

theorem outcome_convert :
    (executeStatement (unary .convert token) s).outcome =
      ((Command.converted v).mapError .numeral).map some := by
  rw [outcome_of_parse (parse_unary .convert htoken)]
  show (Command.convert _ s).outcome = _
  rw [Command.convert_eq]
  dsimp only
  rw [hv]

end

/-! ### Round trips -/

/-- What a token stands for is shown as a text that stands for the same, and is shown as itself, in
every store. -/
structure ShowsBack (s : Store) (token : String) (v : Value) : Prop where
  outcome : (executeStatement (unary .display token) s).outcome = .ok (some (.text v.toText))
  resolve : ∀ t : Store, t.resolve v.toText = .ok v
  again : ∀ t : Store,
    (executeStatement (unary .display v.toText) t).outcome = .ok (some (.text v.toText))

/-- How a conversion of what a token stands for can end. -/
inductive ConvertsBack (s : Store) (token : String) (v : Value) : Prop where
  /-- An integer out of range has no numeral. -/
  | refused {i : Int64} (hv : v = .integer i) (hrange : i.toInt < 1 ∨ 3999 < i.toInt)
      (houtcome : (executeStatement (unary .convert token) s).outcome =
        .error (.numeral (.range i.toInt)))
  /-- In every store the text of the other form stands for that form, which is converted back. -/
  | answered {w : Value} (hrange : ∀ i, v = .integer i → 1 ≤ i.toInt ∧ i.toInt ≤ 3999)
      (houtcome : (executeStatement (unary .convert token) s).outcome = .ok (some w))
      (hresolve : ∀ t : Store, t.resolve w.toText = .ok w)
      (hback : ∀ t : Store,
        (executeStatement (unary .convert w.toText) t).outcome = .ok (some v))

section

variable {s : Store} {token : String} {v : Value} (htoken : IsTokenWord token)
  (hv : s.resolve token = .ok v) (hliteral : v.IsLiteral)

include htoken hv hliteral

theorem showsBack_of_isLiteral : ShowsBack s token v where
  outcome := outcome_display htoken hv
  resolve := Store.resolve_toText hliteral
  again t := outcome_display hliteral.isTokenWord (Store.resolve_toText hliteral t)

theorem convertsBack_of_isLiteral : ConvertsBack s token v := by
  have houtcome := outcome_convert htoken hv
  cases hconverted : Command.converted v with
  | error f =>
    obtain ⟨i, hi, hrange, rfl⟩ := (Command.converted_eq_error_iff hliteral).mp hconverted
    rw [hconverted] at houtcome
    exact .refused hi hrange houtcome
  | ok w =>
    obtain ⟨hother, hback⟩ := Command.converted_converted hliteral hconverted
    have hresolve := Store.resolve_toText hother
    rw [hconverted] at houtcome
    refine .answered (fun i hi => ?_) houtcome hresolve fun t => ?_
    · by_contra hrange
      have herror : Command.converted v = .error (.range i.toInt) :=
        (Command.converted_eq_error_iff hliteral).mpr ⟨i, hi, by omega, rfl⟩
      rw [hconverted] at herror
      cases herror
    · rw [outcome_convert hother.isTokenWord (hresolve t), hback]
      rfl

end

/-- **Texts can be read again.** After any calls of an interpreter, the integers that variables hold
are not negative, and for every token that stands for a value the following holds. Showing it answers
the text of the value, and in every store, whatever variables there are, this text stands for the
value and is shown as itself. Converting it fails if the value is an integer out of range, and says
which; otherwise it answers a value whose text stands for that value in every store, and is converted
to the first one again. -/
theorem texts_roundTrip (calls : List Call) :
    (∀ name v i, (name, v) ∈ (Store.after calls).entries → v.value = .integer i → 0 ≤ i.toInt) ∧
    ∀ token v, (Store.after calls).resolve token = .ok v →
      ShowsBack (.after calls) token v ∧ ConvertsBack (.after calls) token v := by
  have hstore := Store.holdsLiterals_after calls
  refine ⟨fun name v i hmem hi => ?_, fun token v hv => ?_⟩
  · have hliteral := hstore _ hmem
    rw [hi] at hliteral
    cases hliteral with
    | integer h => exact h
  · have htoken := isTokenWord_of_resolve hv
    have hliteral := hstore.isLiteral_of_resolve hv
    exact ⟨showsBack_of_isLiteral htoken hv hliteral, convertsBack_of_isLiteral htoken hv hliteral⟩

/-- A variable that was set to a literal with zeros in front is shown without them. -/
theorem texts_roundTrip_zeros :
    (Store.after [.execute "set a 007; set b a"]).resolve "b" = .ok (.integer 7) ∧
      (∀ t : Store, (executeStatement "display 7" t).outcome = .ok (some (.text "7"))) ∧
      ConvertsBack (.after [.execute "set a 007; set b a"]) "b" (.integer 7) := by
  have hb : (Store.after [.execute "set a 007; set b a"]).resolve "b" = .ok (.integer 7) := by cbv
  obtain ⟨hshows, hconverts⟩ := (texts_roundTrip _).2 "b" _ hb
  exact ⟨hb, hshows.again, hconverts⟩

/-- A negative integer can be computed, but its text can be the name of a variable. -/
example : (executeStatement "subtract 1 2" .empty).outcome = .ok (some (.integer (-1))) ∧
    ((Store.after [.execute "set -1 X"]).resolve "-1").toOption.map Value.toText = some "X" := by
  constructor <;> cbv

end Roman
