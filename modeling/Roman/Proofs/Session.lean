import Roman.Proofs.Handling

/-!
# Sessions

An interpreter is asked again and again, a line or a statement at a time, and only its
store is kept from one call to the next. A statement does one thing to the store or
nothing (`store_of_executeStatement`), so what holds of the empty store and is kept
whenever a variable is stored holds of the store after any calls (`Store.after_induction`).
-/

namespace Roman

/-- What an interpreter can be asked to do. -/
inductive Call where
  /-- To carry out a line, in which a failure is noted. -/
  | execute (line : String)
  /-- To carry out a statement, whose error is the answer. -/
  | executeStatement (statement : String)

/-- The store that a call leaves. -/
def Call.store : Call → Store → Store
  | execute line, s => (Run.ofLine line s).store
  | executeStatement statement, s => (Roman.executeStatement statement s).store

/-- The store of an interpreter after some calls, the first of them on no variables. -/
def Store.after (calls : List Call) : Store := calls.foldl (fun s call => call.store s) .empty

/-! ### What one statement does to the store -/

/-- A statement leaves the store as it was, or it is an assignment that succeeds, and
then a variable is stored under its first argument with the value of its second. -/
theorem store_of_executeStatement (statement : String) (s : Store) :
    (executeStatement statement s).store = s ∨
      ∃ name token value bound, Command.parse statement = .ok ⟨.set, [name, token]⟩ ∧
        s.resolve token = .ok value ∧ Variable.make name value = .ok bound ∧
        (executeStatement statement s).store = s.put name bound := by
  rcases executeStatement_handled statement s with ⟨e, -, hstep⟩ | ⟨c, hparse, hstep⟩
  · exact .inl (by rw [hstep])
  · rcases hstep.store_eq_or_put with
      hstore | ⟨hcategory, name, token, value, bound, harguments, hvalue, hbound, hstore⟩
    · exact .inl hstore
    · refine .inr ⟨name, token, value, bound, ?_, hvalue, hbound, hstore⟩
      obtain ⟨keyword, arguments⟩ := c
      obtain rfl : arguments = [name, token] := harguments
      obtain rfl : keyword = .set := Keyword.category_eq_assignment_iff.mp hcategory
      exact hparse

/-! ### What every store of an interpreter has -/

theorem Run.store_ofStatement (statement : String) (s : Store) :
    (ofStatement statement s).store = (executeStatement statement s).store := by
  rw [ofStatement]
  dsimp only
  split <;> rfl

/-- What each of several runs keeps, the runs one after the other keep. -/
theorem Run.kept_inOrder {P : Store → Prop} {run : String → Store → Run}
    (hrun : ∀ {s}, P s → ∀ text, P (run text s).store) :
    ∀ (texts : List String) {s : Store}, P s → P (inOrder run texts s).store
  | [], _, h => h
  | text :: texts, _, h => kept_inOrder hrun texts (hrun h text)

section

variable {P : Store → Prop}
  (put : ∀ {s : Store} {name token : String} {value : Value} {bound : Variable},
    P s → s.resolve token = .ok value → Variable.make name value = .ok bound → P (s.put name bound))

include put

theorem kept_executeStatement {s : Store} (h : P s) (statement : String) :
    P (executeStatement statement s).store := by
  rcases store_of_executeStatement statement s with
    hstore | ⟨name, token, value, bound, -, hvalue, hbound, hstore⟩
  · rwa [hstore]
  · rw [hstore]
    exact put h hvalue hbound

theorem Call.kept {s : Store} (h : P s) : ∀ call : Call, P (call.store s)
  | execute line => by
    refine Run.kept_inOrder (fun {s} hs text => ?_) (statements line) h
    rw [Run.store_ofStatement]
    exact kept_executeStatement put hs text
  | executeStatement statement => kept_executeStatement put h statement

/-- What the empty store has and every assignment keeps, the store has after any
calls. -/
theorem Store.after_induction (empty : P .empty) (calls : List Call) : P (.after calls) := by
  suffices ∀ (calls : List Call) (s : Store), P s →
      P (calls.foldl (fun s call => call.store s) s) from this calls .empty empty
  intro calls
  induction calls with
  | nil => exact fun _ h => h
  | cons call calls ih => exact fun s h => ih _ (Call.kept put h call)

end

end Roman
