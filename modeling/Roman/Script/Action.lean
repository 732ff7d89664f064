import Roman.Script.Record
import Roman.Script.Store

/-!
# Actions

An action works on a store, keeps a journal, and ends with a result or an error. An
error ends an action at once; what it did to the store before stays done, and so do
the records. Actions are put together one after the other: the second works on the
store that the first leaves, and its records follow those of the first.
-/

namespace Roman

/-- How an action ends. -/
structure Step (α : Type) where
  /-- The result, or the error. -/
  outcome : Except StatementError α
  /-- The store afterwards. -/
  store : Store
  /-- What was recorded, in order. -/
  records : List Record

/-- What can be done with a store. -/
def Action (α : Type) : Type := Store → Step α

namespace Action

variable {α β : Type}

/-- Ends with a result and does nothing. -/
def result (a : α) : Action α := fun s => ⟨.ok a, s, []⟩

/-- Carries out one action and then, unless it failed, the one that its result
gives. -/
def andThen (first : Action α) (next : α → Action β) : Action β := fun s =>
  match (first s).outcome with
  | .error e => ⟨.error e, (first s).store, (first s).records⟩
  | .ok a =>
    let second := next a (first s).store
    ⟨second.outcome, second.store, (first s).records ++ second.records⟩

theorem andThen_of_ok {first : Action α} {next : α → Action β} {s : Store} {a : α}
    (h : (first s).outcome = .ok a) :
    first.andThen next s =
      { next a (first s).store with
        records := (first s).records ++ (next a (first s).store).records } := by
  simp [andThen, h]

theorem andThen_of_error {first : Action α} {next : α → Action β} {s : Store} {e : StatementError}
    (h : (first s).outcome = .error e) :
    first.andThen next s = ⟨.error e, (first s).store, (first s).records⟩ := by
  simp [andThen, h]

instance : Monad Action where
  pure := result
  bind := andThen

/-- Ends with a result or an error and does nothing. -/
def lift (outcome : Except StatementError α) : Action α := fun s => ⟨outcome, s, []⟩

/-- Ends with what a function gives for the store. -/
def inspect (f : Store → Except StatementError α) : Action α := fun s => ⟨f s, s, []⟩

/-- Writes a record. -/
def record (r : Record) : Action Unit := fun s => ⟨.ok (), s, [r]⟩

/-- Changes the store. -/
def change (f : Store → Store) : Action Unit := fun s => ⟨.ok (), f s, []⟩

/-- Finds out what a token stands for. -/
def resolve (token : String) : Action Value := do
  let value ← inspect fun s => s.resolve token
  record (.resolved token value)
  return value

/-- Stores a value under a name. -/
def bindVariable (name : String) (value : Value) : Action Unit := do
  let bound ← lift (Variable.make name value)
  record (.binding bound)
  change fun s => s.put name bound

end Action

end Roman
