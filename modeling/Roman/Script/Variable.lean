import Roman.Script.StatementError

/-!
# Variables

A variable has a name, a value and the kind of its value. A name is any text that
is not empty and not a numeral; the value is a numeral or an integer.
-/

namespace Roman

/-- A named value. -/
structure Variable where
  /-- The name. -/
  name : String
  /-- The value. -/
  value : Value
  /-- The kind of the value. -/
  kind : Kind
  deriving DecidableEq

namespace Variable

/-- Whether a variable may have a name. -/
def isName (name : String) : Bool := name ≠ "" && !Numeral.accepts name

theorem isName_iff {name : String} :
    isName name = true ↔ name ≠ "" ∧ Numeral.accepts name = false := by
  simp [isName]

/-- Whether a variable may hold values of a kind. -/
def isStorable : Kind → Bool
  | .numeral => true
  | .integer => true
  | .real => false
  | .text => false

/-- The variable with a name and a value; the name is checked first. -/
def make (name : String) (value : Value) : Except StatementError Variable :=
  if !isName name then .error (.invalidName name)
  else if !isStorable value.kind then .error (.numeral (.mismatch (.unstorable value.kind name)))
  else .ok ⟨name, value, value.kind⟩

/-- A name and a value make a variable if it may have the name and hold the value. -/
theorem make_eq_ok_iff {name : String} {value : Value} {v : Variable} :
    make name value = .ok v ↔
      isName name = true ∧ isStorable value.kind = true ∧ v = ⟨name, value, value.kind⟩ := by
  rw [make]
  constructor
  · intro h
    split at h
    next => cases h
    next hname =>
      split at h
      next => cases h
      next hkind =>
        cases h
        exact ⟨by simpa using hname, by simpa using hkind, rfl⟩
  · rintro ⟨hname, hkind, rfl⟩
    simp [hname, hkind]

/-- The text a variable is shown as. -/
def toText (v : Variable) : String := s!"{v.name} = {v.value.toText}"

end Variable

end Roman
