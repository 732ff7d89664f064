import Roman.Proofs.Sequencing
import Roman.Proofs.Session

/-!
# Statement by statement

Whatever an interpreter is asked to do, it carries out statements one after the other, each
on the store that the one before leaves. A `Moment` is a statement together with the store
it finds; the two decide how it ends and what it leaves. It ends in one of three ways
(`Moment.ends`): it fails, it has a value, or it assigns, and only then the store changes.

The moments of a list of statements (`Store.moments`) are all there is to know about a run:
the values and the failures of a line are those of its moments (`Run.results_ofLine`,
`Run.failures_ofLine`), and the calls of an interpreter have the moments of their statements
(`Store.after_eq`).
-/

namespace Roman

/-- Whether a statement is an assignment. -/
def isAssignment (statement : String) : Bool :=
  match Command.parse statement with
  | .ok c => c.keyword = .set
  | .error _ => false

/-- A statement that is carried out. -/
structure Moment where
  /-- The text of the statement. -/
  statement : String
  /-- The store that it finds. -/
  store : Store

namespace Moment

/-- How the statement ends. -/
def outcome (m : Moment) : Except StatementError (Option Value) :=
  (executeStatement m.statement m.store).outcome

/-- The store that the statement leaves. -/
def next (m : Moment) : Store := (executeStatement m.statement m.store).store

/-- Whether the statement fails. -/
def failed (m : Moment) : Bool := !m.outcome.isOk

/-- The value of the statement, if it has one. -/
def value? (m : Moment) : Option Value :=
  match m.outcome with
  | .ok answer => answer
  | .error _ => none

/-- The failure of the statement, if it fails. -/
def failure? (m : Moment) : Option Failure :=
  match m.outcome with
  | .ok _ => none
  | .error e => some ⟨m.statement, e⟩

theorem value?_eq_some_iff {m : Moment} {value : Value} :
    m.value? = some value ↔ m.outcome = .ok (some value) := by
  rw [value?]
  cases m.outcome <;> simp

theorem failure?_eq_some_iff {m : Moment} {f : Failure} :
    m.failure? = some f ↔ m.statement = f.statement ∧ m.outcome = .error f.error := by
  rw [failure?]
  cases m.outcome with
  | error e =>
    obtain ⟨statement, error⟩ := f
    simp
  | ok answer => simp

theorem failed_of_error {m : Moment} {e : StatementError} (h : m.outcome = .error e) :
    m.failed = true := by
  rw [failed, h]
  rfl

theorem not_failed_of_ok {m : Moment} {answer : Option Value} (h : m.outcome = .ok answer) :
    m.failed = false := by
  rw [failed, h]
  rfl

/-- The statement sets a name to a token and succeeds, and the token stands for a value. -/
structure Assigns (m : Moment) (name token : String) (value : Value) : Prop where
  parse_eq : Command.parse m.statement = .ok ⟨.set, [name, token]⟩
  not_failed : m.failed = false
  resolve_eq : m.store.resolve token = .ok value

/-- A statement that assigns does nothing else. -/
theorem Assigns.unique {m : Moment} {name name' token token' : String} {value value' : Value}
    (h : m.Assigns name token value) (h' : m.Assigns name' token' value') :
    name = name' ∧ value = value' := by
  have hparse := h.parse_eq.symm.trans h'.parse_eq
  cases hparse
  have hvalue := h.resolve_eq.symm.trans h'.resolve_eq
  cases hvalue
  exact ⟨rfl, rfl⟩

/-! ### The three ways in which a statement ends -/

/-- How a statement ends, and what that says about the store it leaves. -/
inductive Ends (m : Moment) : Prop where
  /-- It fails. -/
  | failed {e : StatementError} (outcome : m.outcome = .error e) (next : m.next = m.store)
  /-- It is no assignment and has a value. -/
  | answered {value : Value} (not_assignment : isAssignment m.statement = false)
      (outcome : m.outcome = .ok (some value)) (next : m.next = m.store)
  /-- It assigns, and has no value. -/
  | assigned {name token : String} {value : Value} (assigns : m.Assigns name token value)
      (outcome : m.outcome = .ok none) (next : m.next = m.store.put name ⟨name, value, value.kind⟩)

theorem ends (m : Moment) : m.Ends := by
  obtain ⟨statement, s⟩ := m
  rcases executeStatement_handled statement s with ⟨e, -, hstep⟩ | ⟨⟨keyword, arguments⟩, hparse, hstep⟩
  · exact .failed (congrArg Step.outcome hstep) (congrArg Step.store hstep)
  · generalize hresult : executeStatement statement s = step at hstep
    have houtcome : Moment.outcome ⟨statement, s⟩ = step.outcome := congrArg Step.outcome hresult
    have hnext : Moment.next ⟨statement, s⟩ = step.store := congrArg Step.store hresult
    cases hstep with
    | failed e _ => exact .failed houtcome hnext
    | answered hcategory value _ =>
      refine .answered ?_ houtcome hnext
      rw [isAssignment, hparse]
      exact decide_eq_false fun hset => hcategory (Keyword.category_eq_assignment_iff.mpr hset)
    | @stored hcategory name token value bound harguments hvalue hbound _ =>
      obtain rfl : arguments = [name, token] := harguments
      obtain rfl : keyword = .set := Keyword.category_eq_assignment_iff.mp hcategory
      obtain ⟨-, -, rfl⟩ := Variable.make_eq_ok_iff.mp hbound
      exact .assigned ⟨hparse, not_failed_of_ok houtcome, hvalue⟩ houtcome hnext

/-- A statement that fails, or is no assignment, leaves the store as it was. -/
theorem next_of_inert {m : Moment} (h : m.failed = true ∨ isAssignment m.statement = false) :
    m.next = m.store := by
  cases m.ends with
  | failed _ hnext => exact hnext
  | answered _ _ hnext => exact hnext
  | assigned hassigns _ _ =>
    rcases h with h | h
    · rw [hassigns.not_failed] at h
      cases h
    · rw [isAssignment, hassigns.parse_eq] at h
      cases h

/-- A statement that assigns leaves the store with its variable. -/
theorem Assigns.next_eq {m : Moment} {name token : String} {value : Value}
    (h : m.Assigns name token value) : m.next = m.store.put name ⟨name, value, value.kind⟩ := by
  cases m.ends with
  | failed houtcome _ =>
    have hfailed := (failed_of_error houtcome).symm.trans h.not_failed
    cases hfailed
  | answered hset _ _ =>
    rw [isAssignment, h.parse_eq] at hset
    cases hset
  | assigned h' _ hnext =>
    obtain ⟨rfl, rfl⟩ := h.unique h'
    exact hnext

end Moment

/-! ### Statements one after the other -/

namespace Store

/-- The moments of statements that are carried out one after the other. -/
def moments : Store → List String → List Moment
  | _, [] => []
  | s, text :: texts => ⟨text, s⟩ :: moments (Moment.next ⟨text, s⟩) texts

/-- The store that is left when statements have been carried out one after the other. -/
def afterStatements (s : Store) (texts : List String) : Store :=
  texts.foldl (fun s text => (executeStatement text s).store) s

theorem afterStatements_cons (s : Store) (text : String) (texts : List String) :
    s.afterStatements (text :: texts) = (Moment.next ⟨text, s⟩).afterStatements texts := rfl

theorem afterStatements_append (s : Store) (texts more : List String) :
    s.afterStatements (texts ++ more) = (s.afterStatements texts).afterStatements more :=
  List.foldl_append

theorem map_statement_moments (s : Store) (texts : List String) :
    (s.moments texts).map Moment.statement = texts := by
  induction texts generalizing s with
  | nil => rfl
  | cons text texts ih => rw [moments, List.map_cons, ih]

theorem statement_mem_of_mem_moments {s : Store} {texts : List String} {m : Moment}
    (h : m ∈ s.moments texts) : m.statement ∈ texts := by
  rw [← s.map_statement_moments texts]
  exact List.mem_map_of_mem h

theorem length_moments (s : Store) (texts : List String) : (s.moments texts).length = texts.length := by
  rw [← List.length_map Moment.statement, map_statement_moments]

end Store

/-! ### Lines and calls -/

namespace Run

/-- A run of one statement has its value, or its failure. -/
theorem execution_ofStatement (statement : String) (s : Store) :
    (ofStatement statement s).execution =
      ⟨(Moment.value? ⟨statement, s⟩).toList, (Moment.failure? ⟨statement, s⟩).toList⟩ := by
  rw [ofStatement, Moment.value?, Moment.failure?, Moment.outcome]
  dsimp only
  cases (executeStatement statement s).outcome with
  | error e => rfl
  | ok answer => cases answer <;> rfl

/-- Statements that are run in order have the values and the failures of their moments. -/
theorem execution_inOrder (texts : List String) (s : Store) :
    (inOrder ofStatement texts s).execution =
      ⟨(s.moments texts).filterMap Moment.value?, (s.moments texts).filterMap Moment.failure?⟩ := by
  induction texts generalizing s with
  | nil => rfl
  | cons text texts ih =>
    rw [inOrder, Store.moments]
    dsimp only
    rw [store_ofStatement, execution_ofStatement, ih]
    simp only [List.filterMap_eq_flatMap_toList, List.flatMap_cons]
    rfl

theorem store_inOrder (texts : List String) (s : Store) :
    (inOrder ofStatement texts s).store = s.afterStatements texts := by
  induction texts generalizing s with
  | nil => rfl
  | cons text texts ih =>
    rw [inOrder, store_ofStatement, ih]
    rfl

variable (line : String) (s : Store)

/-- The values of a line, in order, are those of its statements. -/
theorem results_ofLine :
    (ofLine line s).execution.results = (s.moments (statements line)).filterMap Moment.value? := by
  rw [ofLine, execution_inOrder]

/-- The failures of a line, in order, are those of its statements. -/
theorem failures_ofLine :
    (ofLine line s).execution.failures = (s.moments (statements line)).filterMap Moment.failure? := by
  rw [ofLine, execution_inOrder]

theorem store_ofLine : (ofLine line s).store = s.afterStatements (statements line) := by
  rw [ofLine, store_inOrder]

end Run

/-- The statements that a call carries out. -/
def Call.statements : Call → List String
  | execute line => Roman.statements line
  | executeStatement statement => [statement]

/-- The store that calls leave is the one that all their statements leave, one after the
other. -/
theorem Store.after_eq (calls : List Call) :
    after calls = empty.afterStatements (calls.flatMap Call.statements) := by
  rw [after, afterStatements, List.foldl_flatMap]
  congr 1
  funext s call
  cases call with
  | execute line => exact Run.store_ofLine line s
  | executeStatement statement => rfl

end Roman
