import Roman.Proofs.StoreInvariant

/-!
# What is set can be read, or is covered by a literal

A token is a numeral, an integer literal or a name, in this order. A name may be no
numeral, so that a variable is never covered by one; but it may be digits, and then the
token is the integer literal, and the variable of that name is never looked at. It is
read back just when the literal happens to be what it holds (`Value.ReadableAs`).
-/

namespace Roman

/-- Whether a value that is stored under a name is what the name stands for: the name is
no integer literal, or it is the literal of that value. -/
def Value.ReadableAs (value : Value) (name : String) : Prop :=
  isDigits name = true →
    (ofDigits name : Int) ≤ Int64.maxValue.toInt ∧ value = .integer (Int64.ofNat (ofDigits name))

theorem le_maxValue_iff {n : Nat} : (n : Int) ≤ Int64.maxValue.toInt ↔ n < 2 ^ 63 := by
  rw [Int64.toInt_maxValue]
  omega

theorem toInt_ofNat {n : Nat} (h : (n : Int) ≤ Int64.maxValue.toInt) :
    (Int64.ofNat n).toInt = n :=
  Int64.toInt_ofNat_of_lt (le_maxValue_iff.mp h)

namespace Store

theorem integerOfLiteral_eq_ok_iff {token : String} {n : Nat} {value : Value} :
    integerOfLiteral token n = .ok value ↔
      (n : Int) ≤ Int64.maxValue.toInt ∧ value = .integer (Int64.ofNat n) := by
  rw [integerOfLiteral]
  split
  next h => simp [h, eq_comm]
  next h => simp [h]

/-- What a name that has a variable stands for. -/
theorem resolve_of_find? {s : Store} {name : String} {v : Variable} (hv : s.find? name = some v)
    (hname : Numeral.accepts name = false) :
    s.resolve name =
      if isDigits name then integerOfLiteral name (ofDigits name) else .ok v.value := by
  obtain ⟨r, hr⟩ := Numeral.exists_parse_eq_error hname
  rw [resolve, hr, natural?]
  by_cases hdigits : isDigits name = true
  · rw [if_pos hdigits, if_pos hdigits]
  · rw [if_neg hdigits, if_neg hdigits]
    dsimp only
    rw [(s.get_eq_ok_iff name v).mpr hv]
    rfl

/-- A name that has a variable stands for the value of it if the value is readable as
the name, and only then. -/
theorem resolve_eq_value_iff {s : Store} {name : String} {v : Variable} (hv : s.find? name = some v)
    (hname : Numeral.accepts name = false) :
    s.resolve name = .ok v.value ↔ v.value.ReadableAs name := by
  rw [resolve_of_find? hv hname, Value.ReadableAs]
  by_cases hdigits : isDigits name = true
  · rw [if_pos hdigits, integerOfLiteral_eq_ok_iff]
    exact ⟨fun h _ => h, fun h => h hdigits⟩
  · rw [if_neg hdigits]
    exact iff_of_true rfl fun h => absurd h hdigits

end Store

/-- An assignment that succeeds stores its variable. -/
theorem exists_put_of_ok {statement name token : String} {s : Store} {answer : Option Value}
    (hparse : Command.parse statement = .ok ⟨.set, [name, token]⟩)
    (hok : (executeStatement statement s).outcome = .ok answer) :
    ∃ value bound, s.resolve token = .ok value ∧ Variable.make name value = .ok bound ∧
      (executeStatement statement s).store = s.put name bound := by
  rcases executeStatement_handled statement s with ⟨e, herror, -⟩ | ⟨c, hc, hstep⟩
  · rw [hparse] at herror
    cases herror
  · rw [hparse] at hc
    cases hc
    obtain ⟨name, token, value, bound, harguments, hvalue, hbound, hstore⟩ := hstep.exists_put hok
    cases harguments
    exact ⟨value, bound, hvalue, hbound, hstore⟩

/-- **When an assignment can be read back.** After any calls of an interpreter, an
assignment that succeeds leaves a store in which its name stands for the value that its
second argument stood for if that value is readable as the name, and only then: with
any name but an integer literal it is read back, and an integer literal goes on standing
for itself. In the same way the name of any variable of the store stands for the value
of that variable just when the value is readable as it. -/
theorem readBack_iff (calls : List Call) :
    (∀ {statement name token : String} {answer : Option Value},
      Command.parse statement = .ok ⟨.set, [name, token]⟩ →
      (executeStatement statement (.after calls)).outcome = .ok answer →
      ∃ value, (Store.after calls).resolve token = .ok value ∧
        ((executeStatement statement (.after calls)).store.resolve name = .ok value ↔
          value.ReadableAs name) ∧
        (isDigits name = true →
          (executeStatement statement (.after calls)).store.resolve name =
            Store.integerOfLiteral name (ofDigits name))) ∧
    ∀ {name : String} {v : Variable}, (Store.after calls).find? name = some v →
      ((Store.after calls).resolve name = .ok v.value ↔ v.value.ReadableAs name) := by
  refine ⟨fun {statement name token answer} hparse hok => ?_, fun {name v} hv => ?_⟩
  · obtain ⟨value, bound, hvalue, hbound, hstore⟩ := exists_put_of_ok hparse hok
    obtain ⟨hname, -, rfl⟩ := Variable.make_eq_ok_iff.mp hbound
    have hnumeral := (Variable.isName_iff.mp hname).2
    have hfind : (executeStatement statement (.after calls)).store.find? name =
        some ⟨name, value, value.kind⟩ := by
      rw [hstore, Store.find?_put, if_pos rfl]
    refine ⟨value, hvalue, Store.resolve_eq_value_iff hfind hnumeral, fun hdigits => ?_⟩
    rw [Store.resolve_of_find? hfind hnumeral, if_pos hdigits]
  · have hstands := (Store.valid_after calls).standsAt (Store.mem_of_find? hv)
    exact Store.resolve_eq_value_iff hv hstands.not_accepts

/-- A name is read back that stands for the value of another one; the name 5 goes on
standing for the number. -/
theorem readBack_iff_names :
    (∃ value, (Store.after [.execute "set a X"]).resolve "a" = .ok value ∧
      (executeStatement "set b a" (.after [.execute "set a X"])).store.resolve "b" = .ok value) ∧
    (executeStatement "set 5 a" (.after [.execute "set a X"])).store.resolve "5" =
      Store.integerOfLiteral "5" (ofDigits "5") := by
  have hb : Command.parse "set b a" = .ok ⟨.set, ["b", "a"]⟩ := by cbv
  have hfive : Command.parse "set 5 a" = .ok ⟨.set, ["5", "a"]⟩ := by cbv
  have hokb : (executeStatement "set b a" (.after [.execute "set a X"])).outcome = .ok none := by
    cbv
  have hokfive : (executeStatement "set 5 a" (.after [.execute "set a X"])).outcome = .ok none := by
    cbv
  obtain ⟨value, hvalue, hiff, -⟩ := (readBack_iff [.execute "set a X"]).1 hb hokb
  obtain ⟨-, -, -, hliteral⟩ := (readBack_iff [.execute "set a X"]).1 hfive hokfive
  exact ⟨⟨value, hvalue, hiff.mpr fun h => absurd h (by decide)⟩, hliteral (by decide)⟩

/-- Setting 5 to X succeeds and stores X, and still 5 is the number. -/
theorem five_covered :
    Command.parse "set 5 X" = .ok ⟨.set, ["5", "X"]⟩ ∧
    (executeStatement "set 5 X" .empty).outcome = .ok none ∧
    Store.empty.resolve "X" = .ok (.numeral ⟨10, by decide, by decide⟩) ∧
    ((executeStatement "set 5 X" .empty).store.find? "5").map Variable.value =
      some (.numeral ⟨10, by decide, by decide⟩) ∧
    (executeStatement "set 5 X" .empty).store.resolve "5" = .ok (.integer 5) := by
  refine ⟨?_, ?_, ?_, ?_, ?_⟩ <;> cbv

end Roman
