import Mathlib
import Roman.Script.Execution

/-!
# What carrying out a command does

Each way to carry out a command is stated as one equation: what it ends with, what it
leaves of the store and what it records, for every command and every store. The
equations of the single actions come first (`Action.resolve_eq`,
`Action.bindVariable_eq`), then those of the four categories and that of a statement
(`executeStatement_eq`).

From them it is read off that an error changes nothing and that only an assignment
changes the store, in one place (`handle_atomic`).
-/

namespace Roman

namespace Action

variable {α β : Type}

/-! ### Actions one after the other -/

theorem bind_of_ok {first : Action α} {next : α → Action β} {s t : Store} {a : α}
    {rs : List Record}
    (h : first s = ⟨.ok a, t, rs⟩) :
    (first >>= next) s = ⟨(next a t).outcome, (next a t).store, rs ++ (next a t).records⟩ := by
  show first.andThen next s = _
  rw [andThen_of_ok (a := a) (by rw [h]), h]

theorem bind_of_error {first : Action α} {next : α → Action β} {s t : Store} {e : StatementError}
    {rs : List Record}
    (h : first s = ⟨.error e, t, rs⟩) : (first >>= next) s = ⟨.error e, t, rs⟩ := by
  show first.andThen next s = _
  rw [andThen_of_error (e := e) (by rw [h]), h]

theorem lift_bind (outcome : Except StatementError α) (next : α → Action β) (s : Store) :
    (lift outcome >>= next) s =
      match outcome with
      | .ok a => next a s
      | .error e => ⟨.error e, s, []⟩ := by
  cases outcome with
  | error e => exact bind_of_error rfl
  | ok a => exact (bind_of_ok rfl).trans (by rw [List.nil_append])

theorem record_bind (r : Record) (next : Unit → Action β) (s : Store) :
    (record r >>= next) s = ⟨(next () s).outcome, (next () s).store, r :: (next () s).records⟩ := by
  have h : record r s = ⟨.ok (), s, [r]⟩ := rfl
  exact bind_of_ok h

/-- A token is resolved in the store, which stays as it is; only a success is
recorded. -/
theorem resolve_eq (token : String) (s : Store) :
    resolve token s =
      match s.resolve token with
      | .ok value => ⟨.ok value, s, [.resolved token value]⟩
      | .error e => ⟨.error e, s, []⟩ := by
  have h : (inspect fun s => s.resolve token) s = ⟨s.resolve token, s, []⟩ := rfl
  cases hvalue : s.resolve token with
  | error e => exact bind_of_error (h.trans (by rw [hvalue]))
  | ok value => exact bind_of_ok (h.trans (by rw [hvalue]))

theorem resolve_bind (token : String) (next : Value → Action β) (s : Store) :
    (resolve token >>= next) s =
      match s.resolve token with
      | .ok value =>
        ⟨(next value s).outcome, (next value s).store,
          .resolved token value :: (next value s).records⟩
      | .error e => ⟨.error e, s, []⟩ := by
  have h := resolve_eq token s
  cases hvalue : s.resolve token with
  | error e => exact bind_of_error (h.trans (by rw [hvalue]))
  | ok value => exact bind_of_ok (h.trans (by rw [hvalue]))

/-- A value is stored under a name if the two make a variable; only then is something
recorded. -/
theorem bindVariable_eq (name : String) (value : Value) (s : Store) :
    bindVariable name value s =
      match Variable.make name value with
      | .ok bound => ⟨.ok (), s.put name bound, [.binding bound]⟩
      | .error e => ⟨.error e, s, []⟩ := by
  refine (lift_bind _ _ s).trans ?_
  cases Variable.make name value <;> rfl

theorem bindVariable_bind (name : String) (value : Value) (next : Unit → Action β) (s : Store) :
    (bindVariable name value >>= next) s =
      match Variable.make name value with
      | .ok bound =>
        ⟨(next () (s.put name bound)).outcome, (next () (s.put name bound)).store,
          .binding bound :: (next () (s.put name bound)).records⟩
      | .error e => ⟨.error e, s, []⟩ := by
  have h := bindVariable_eq name value s
  cases hbound : Variable.make name value with
  | error e => exact bind_of_error (h.trans (by rw [hbound]))
  | ok bound => exact bind_of_ok (h.trans (by rw [hbound]))

theorem pure_eq (a : α) (s : Store) : (pure a : Action α) s = ⟨.ok a, s, []⟩ := rfl

end Action

/-! ### The four categories -/

namespace Command

open Roman.Action

variable (c : Command) (s : Store)

theorem exactly_two_eq : c.exactly 2 =
    match c.arguments with
    | [a, b] => .ok #v[a, b]
    | _ => .error (.malformed (.wrongCount c.keyword 2 c.arguments.length)) := by
  obtain ⟨keyword, arguments⟩ := c
  match arguments with
  | [] | [_] | [_, _] | _ :: _ :: _ :: _ => simp [exactly]

theorem exactly_one_eq : c.exactly 1 =
    match c.arguments with
    | [a] => .ok #v[a]
    | _ => .error (.malformed (.wrongCount c.keyword 1 c.arguments.length)) := by
  obtain ⟨keyword, arguments⟩ := c
  match arguments with
  | [] | [_] | _ :: _ :: _ => simp [exactly]

/-- An assignment checks, in this order, the number of its arguments, the token, and
that name and value make a variable; then the variable is stored. -/
theorem assign_eq : c.assign s =
    match c.arguments with
    | [name, token] =>
      match s.resolve token with
      | .ok value =>
        match Variable.make name value with
        | .ok bound =>
          ⟨.ok none, s.put name bound, [.resolved token value, .setting name token, .binding bound]⟩
        | .error e => ⟨.error e, s, [.resolved token value, .setting name token]⟩
      | .error e => ⟨.error e, s, []⟩
    | _ => ⟨.error (.malformed (.wrongCount c.keyword 2 c.arguments.length)), s, []⟩ := by
  obtain ⟨keyword, arguments⟩ := c
  match arguments with
  | [] | [_] | _ :: _ :: _ :: _ =>
    simp only [assign, lift_bind, exactly_two_eq]
  | [name, token] =>
    simp only [assign, lift_bind, exactly_two_eq, resolve_bind, record_bind, bindVariable_bind,
      pure_eq, Vector.getElem_mk, List.getElem_toArray, List.getElem_cons_zero,
      List.getElem_cons_succ]
    cases s.resolve token with
    | error e => rfl
    | ok value =>
      dsimp only
      cases Variable.make name value <;> rfl

/-- A computation asks for the operator first, then for the number of its arguments,
and then resolves them from left to right. -/
theorem compute_eq : c.compute s =
    match c.keyword.operator? with
    | none => ⟨.error (.malformed (.notArithmetic c.keyword)), s, []⟩
    | some operator =>
      match c.arguments with
      | [a, b] =>
        match s.resolve a with
        | .error e => ⟨.error e, s, []⟩
        | .ok left =>
          match s.resolve b with
          | .error e => ⟨.error e, s, [.resolved a left]⟩
          | .ok right =>
            ⟨((operator.applyValues left right).mapError (.operation c.keyword)).map some, s,
              [.resolved a left, .resolved b right]⟩
      | _ => ⟨.error (.malformed (.wrongCount c.keyword 2 c.arguments.length)), s, []⟩ := by
  obtain ⟨keyword, arguments⟩ := c
  simp only [compute, lift_bind]
  cases keyword.operator? with
  | none => rfl
  | some operator =>
    match arguments with
    | [] | [_] | _ :: _ :: _ :: _ =>
      simp only [exactly_two_eq]
    | [a, b] =>
      simp only [lift_bind, exactly_two_eq, resolve_bind, pure_eq,
        Vector.getElem_mk, List.getElem_toArray, List.getElem_cons_zero, List.getElem_cons_succ]
      cases s.resolve a with
      | error e => rfl
      | ok left =>
        cases s.resolve b with
        | error e => rfl
        | ok right =>
          dsimp only
          cases (operator.applyValues left right).mapError (StatementError.operation keyword) with
          | error e => rfl
          | ok value => rfl

/-- A conversion resolves its argument and turns what it stands for into its other
form. -/
theorem convert_eq : c.convert s =
    match c.arguments with
    | [token] =>
      match s.resolve token with
      | .ok value => ⟨((converted value).mapError .numeral).map some, s, [.resolved token value]⟩
      | .error e => ⟨.error e, s, []⟩
    | _ => ⟨.error (.malformed (.wrongCount c.keyword 1 c.arguments.length)), s, []⟩ := by
  obtain ⟨keyword, arguments⟩ := c
  match arguments with
  | [] | _ :: _ :: _ =>
    simp only [convert, lift_bind, exactly_one_eq]
  | [token] =>
    simp only [convert, lift_bind, exactly_one_eq, resolve_bind, pure_eq,
      Vector.getElem_mk, List.getElem_toArray, List.getElem_cons_zero]
    cases s.resolve token with
    | error e => rfl
    | ok value =>
      dsimp only
      cases (converted value).mapError StatementError.numeral <;> rfl

/-- A display resolves its argument and shows what it stands for. -/
theorem display_eq : c.display s =
    match c.arguments with
    | [token] =>
      match s.resolve token with
      | .ok value => ⟨.ok (some (.text value.toText)), s, [.resolved token value]⟩
      | .error e => ⟨.error e, s, []⟩
    | _ => ⟨.error (.malformed (.wrongCount c.keyword 1 c.arguments.length)), s, []⟩ := by
  obtain ⟨keyword, arguments⟩ := c
  match arguments with
  | [] | _ :: _ :: _ =>
    simp only [display, lift_bind, exactly_one_eq]
  | [token] =>
    simp only [display, lift_bind, exactly_one_eq, resolve_bind, pure_eq,
      Vector.getElem_mk, List.getElem_toArray, List.getElem_cons_zero]

/-! ### What becomes of the store -/

/-- How carrying out a command in a category can end: in an error, with an answer, or,
in an assignment only, with a variable stored and no answer. -/
inductive Handled (category : Category) (c : Command) (s : Store) : Step (Option Value) → Prop where
  /-- In an error, with the store as it was. -/
  | failed (e : StatementError) (rs : List Record) : Handled category c s ⟨.error e, s, rs⟩
  /-- With an answer, and the store as it was. -/
  | answered (h : category ≠ .assignment) (value : Value) (rs : List Record) :
      Handled category c s ⟨.ok (some value), s, rs⟩
  /-- With a variable stored. -/
  | stored (h : category = .assignment) {name token : String} {value : Value} {bound : Variable}
      (harguments : c.arguments = [name, token]) (hvalue : s.resolve token = .ok value)
      (hbound : Variable.make name value = .ok bound) (rs : List Record) :
      Handled category c s ⟨.ok none, s.put name bound, rs⟩

theorem handled_ofOutcome {category : Category} (h : category ≠ .assignment)
    (outcome : Except StatementError Value)
    (rs : List Record) : Handled category c s ⟨outcome.map some, s, rs⟩ := by
  cases outcome with
  | error e => exact .failed e rs
  | ok value => exact .answered h value rs

namespace Handled

variable {category : Category} {c : Command} {s : Store} {step : Step (Option Value)}

theorem with_records (h : Handled category c s step) (rs : List Record) :
    Handled category c s ⟨step.outcome, step.store, rs⟩ := by
  cases h with
  | failed e _ => exact .failed e rs
  | answered h value _ => exact .answered h value rs
  | stored h harguments hvalue hbound _ => exact .stored h harguments hvalue hbound rs

theorem store_of_error (h : Handled category c s step) {e : StatementError}
    (he : step.outcome = .error e) :
    step.store = s := by
  cases h with
  | failed => rfl
  | answered => rfl
  | stored => cases he

/-- An assignment that succeeds has stored a variable. -/
theorem exists_put (h : Handled .assignment c s step) {answer : Option Value}
    (hok : step.outcome = .ok answer) :
    ∃ name token value bound, c.arguments = [name, token] ∧ s.resolve token = .ok value ∧
      Variable.make name value = .ok bound ∧ step.store = s.put name bound := by
  cases h with
  | failed => cases hok
  | answered h => exact absurd rfl h
  | stored _ harguments hvalue hbound => exact ⟨_, _, _, _, harguments, hvalue, hbound, rfl⟩

/-- Only an assignment changes the store, and only by storing a variable. -/
theorem store_eq_or_put (h : Handled category c s step) :
    step.store = s ∨
      category = .assignment ∧ ∃ name token value bound, c.arguments = [name, token] ∧
        s.resolve token = .ok value ∧ Variable.make name value = .ok bound ∧
        step.store = s.put name bound := by
  cases h with
  | failed => exact .inl rfl
  | answered => exact .inl rfl
  | stored hcategory harguments hvalue hbound =>
    exact .inr ⟨hcategory, _, _, _, _, harguments, hvalue, hbound, rfl⟩

end Handled

/-- Carrying out a command ends in one of the three ways. -/
theorem handled (category : Category) : Handled category c s (c.handle category s) := by
  cases category with
  | assignment =>
    show Handled _ c s (c.assign s)
    rw [assign_eq]
    split
    next name token harguments =>
      split
      next value hvalue =>
        split
        next bound hbound => exact .stored rfl harguments hvalue hbound _
        next e _ => exact .failed e _
      next e _ => exact .failed e _
    next => exact .failed _ _
  | arithmetic =>
    show Handled _ c s (c.compute s)
    rw [compute_eq]
    split
    next => exact .failed _ _
    next operator _ =>
      split
      next a b _ =>
        split
        next e _ => exact .failed e _
        next left _ =>
          split
          next e _ => exact .failed e _
          next right _ => exact handled_ofOutcome c s (by decide) _ _
      next => exact .failed _ _
  | conversion =>
    show Handled _ c s (c.convert s)
    rw [convert_eq]
    split
    next token _ =>
      split
      next value _ => exact handled_ofOutcome c s (by decide) _ _
      next e _ => exact .failed e _
    next => exact .failed _ _
  | display =>
    show Handled _ c s (c.display s)
    rw [display_eq]
    split
    next token _ =>
      split
      next value _ => exact .answered (by decide) _ _
      next e _ => exact .failed e _
    next => exact .failed _ _

end Command

/-- A statement is parsed, recorded, and carried out in the category of its keyword. -/
theorem executeStatement_eq (statement : String) (s : Store) :
    executeStatement statement s =
      match Command.parse statement with
      | .ok c =>
        ⟨(c.handle c.category s).outcome, (c.handle c.category s).store,
          .dispatching statement c.category :: (c.handle c.category s).records⟩
      | .error e => ⟨.error e, s, []⟩ := by
  simp only [executeStatement, Action.lift_bind, Action.record_bind]
  cases Command.parse statement <;> rfl

section

variable {statement : String} {c : Command}

theorem outcome_of_parse (h : Command.parse statement = .ok c) (s : Store) :
    (executeStatement statement s).outcome = (c.handle c.category s).outcome := by
  rw [executeStatement_eq, h]

theorem store_of_parse (h : Command.parse statement = .ok c) (s : Store) :
    (executeStatement statement s).store = (c.handle c.category s).store := by
  rw [executeStatement_eq, h]

end

/-- A statement ends as its command does, or in an error because it is no command. -/
theorem executeStatement_handled (statement : String) (s : Store) :
    (∃ e, Command.parse statement = .error e ∧ executeStatement statement s = ⟨.error e, s, []⟩) ∨
      ∃ c, Command.parse statement = .ok c ∧
        Command.Handled c.category c s (executeStatement statement s) := by
  rw [executeStatement_eq]
  cases Command.parse statement with
  | error e => exact .inl ⟨e, rfl, rfl⟩
  | ok c => exact .inr ⟨c, rfl, (c.handled s c.category).with_records _⟩

/-- A statement that fails, at whatever point, leaves the store as it was. -/
theorem store_of_executeStatement_error {statement : String} {s : Store} {e : StatementError}
    (h : (executeStatement statement s).outcome = .error e) :
    (executeStatement statement s).store = s := by
  rcases executeStatement_handled statement s with ⟨e', -, hstep⟩ | ⟨c, -, hstep⟩
  · rw [hstep]
  · exact hstep.store_of_error h

/-! ### One binding and no other -/

/-- A store that differs from another one in what it holds under one name: there it has
the variable with that name and the given value. -/
structure Store.Rebinds (s : Store) (name : String) (value : Value) (t : Store) : Prop where
  /-- The name has its variable. -/
  find?_self : t.find? name = some ⟨name, value, value.kind⟩
  /-- What other names have is what they had. -/
  find?_other : ∀ other, other ≠ name → t.find? other = s.find? other
  /-- The other entries are the same ones in the same order. -/
  entries_other : t.entries.filter (fun e => e.1 ≠ name) = s.entries.filter (fun e => e.1 ≠ name)

theorem filter_insertEntry (name : String) (v : Variable) (entries : List (String × Variable)) :
    (insertEntry name v entries).filter (fun e => e.1 ≠ name) =
      entries.filter (fun e => e.1 ≠ name) := by
  induction entries with
  | nil => simp [insertEntry]
  | cons e rest ih =>
    obtain ⟨other, w⟩ := e
    rw [insertEntry]
    split
    · simp
    · split
      next h => simp [h]
      next => rw [List.filter_cons, List.filter_cons, ih]

theorem Store.rebinds_put (s : Store) {name : String} {value : Value} {v : Variable}
    (h : Variable.make name value = .ok v) : s.Rebinds name value (s.put name v) where
  find?_self := by
    obtain ⟨-, -, rfl⟩ := Variable.make_eq_ok_iff.mp h
    rw [find?_put, if_pos rfl]
  find?_other other hother := by rw [find?_put, if_neg hother]
  entries_other := filter_insertEntry name v s.entries

/-- **An error changes nothing, and a success changes one binding at most.** Carrying out
any command in any category, its own or not: an error leaves the store as it was; with
an answer or without, only an assignment changes the store, and then the name that is
its first argument has the value that its second argument stands for, and no other
binding changes; and there is no answer exactly in an assignment. So a statement that
fails, at whatever point, leaves the store as it was. -/
theorem handle_atomic :
    (∀ (category : Category) (c : Command) (s : Store),
      match (c.handle category s).outcome with
      | .error _ => (c.handle category s).store = s
      | .ok answer =>
        (answer = none ↔ category = .assignment) ∧
        (category ≠ .assignment → (c.handle category s).store = s) ∧
        (category = .assignment → ∃ name token value, c.arguments = [name, token] ∧
          s.resolve token = .ok value ∧ s.Rebinds name value (c.handle category s).store)) ∧
    (∀ (statement : String) (s : Store) (e : StatementError),
      (executeStatement statement s).outcome = .error e →
        (executeStatement statement s).store = s) := by
  refine ⟨fun category c s => ?_, fun statement s e h => store_of_executeStatement_error h⟩
  have hstep := c.handled s category
  generalize c.handle category s = step at hstep ⊢
  cases hstep with
  | failed e rs => rfl
  | answered h value rs =>
    exact ⟨iff_of_false (by simp) h, fun _ => rfl, fun h' => absurd h' h⟩
  | stored h harguments hvalue hbound rs =>
    refine ⟨iff_of_true rfl h, fun h' => absurd h h', fun _ => ?_⟩
    exact ⟨_, _, _, harguments, hvalue, s.rebinds_put hbound⟩

/-- In a store with two variables, one of them is set anew and the other one stays. A name that is
refused, if only after the value was found, changes nothing there. -/
theorem handle_atomic_overwrite :
    let s := (Run.ofLine "set a X; set b V" .empty).store
    let c : Command := ⟨.set, ["a", "5"]⟩
    (c.handle .assignment s).outcome = .ok none ∧
      s.Rebinds "a" (.integer 5) (c.handle .assignment s).store ∧
      s.toText = "a = X\nb = V" ∧ (c.handle .assignment s).store.toText = "a = 5\nb = V" ∧
      (executeStatement "set X 5" s).outcome = .error (.invalidName "X") ∧
      (executeStatement "set X 5" s).store = s := by
  -- for any store, so that nothing is evaluated where the theorem is applied
  have hrebinds {s : Store} {c : Command} (h : (c.handle .assignment s).outcome = .ok none) :
      ∃ name token value, c.arguments = [name, token] ∧ s.resolve token = .ok value ∧
        s.Rebinds name value (c.handle .assignment s).store := by
    have hatomic := handle_atomic.1 .assignment c s
    rw [h] at hatomic
    exact hatomic.2.2 rfl
  intro s c
  have hs : s = (Run.ofLine "set a X; set b V" .empty).store := rfl
  have hset : (c.handle .assignment s).outcome = .ok none := by rw [hs]; cbv
  have hfive : s.resolve "5" = .ok (.integer 5) := by rw [hs]; cbv
  have hrefused : (executeStatement "set X 5" s).outcome = .error (.invalidName "X") := by
    rw [hs]
    cbv
  obtain ⟨name, token, value, harguments, hvalue, hself⟩ := hrebinds hset
  cases harguments
  cases hfive.symm.trans hvalue
  exact ⟨hset, hself, by rw [hs]; cbv, by rw [hs]; cbv, hrefused, handle_atomic.2 _ _ _ hrefused⟩

end Roman
