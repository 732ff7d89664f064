import Roman.Proofs.Resolution

/-!
# Independent assignments

An assignment reads what one token stands for and writes one name. Two assignments are independent
if neither reads or writes the name that the other one writes (`Assignment.Independent`). Then what
one makes does not depend on whether the other was carried out before
(`Assignment.Independent.bound_next`), and they leave the same store in both orders
(`Assignment.Independent.next_comm`), as entries are kept in the order of their names whatever the
order in which they came.

From two assignments this goes over to lists of them: all orders are alike
(`assignments_commute`).
-/

namespace Roman

/-! ### Entries that are inserted one after the other -/

/-- Entries of different names can be inserted in any order. -/
theorem insertEntry_comm {name other : String} (h : name ≠ other) (v w : Variable)
    (entries : List (String × Variable)) :
    insertEntry name v (insertEntry other w entries) =
      insertEntry other w (insertEntry name v entries) := by
  induction entries with
  | nil => grind [insertEntry]
  | cons e rest ih => grind [insertEntry]

/-- Of two entries of one name the second one is left. -/
theorem insertEntry_insertEntry (name : String) (v w : Variable)
    (entries : List (String × Variable)) :
    insertEntry name v (insertEntry name w entries) = insertEntry name v entries := by
  induction entries with
  | nil => grind [insertEntry]
  | cons e rest ih => grind [insertEntry]

namespace Store

variable (s : Store)

theorem put_comm {name other : String} (h : name ≠ other) (v w : Variable) :
    (s.put other w).put name v = (s.put name v).put other w :=
  congrArg Store.mk (insertEntry_comm h v w s.entries)

theorem put_put (name : String) (v w : Variable) : (s.put name w).put name v = s.put name v :=
  congrArg Store.mk (insertEntry_insertEntry name v w s.entries)

/-- A token stands for the same after a variable of another name was stored. -/
theorem resolve_put_of_ne {token name : String} (h : token ≠ name) (v : Variable) :
    (s.put name v).resolve token = s.resolve token := by
  have hget : (s.put name v).get token = s.get token := by
    rw [get, find?_put, if_neg h, get]
  rw [resolve, resolve, hget]

/-- A token stands for the same after its value was stored, even under the token itself. -/
theorem resolve_put_self {s : Store} {token name : String} {value : Value} {v : Variable}
    (hvalue : s.resolve token = .ok value) (hv : Variable.make name value = .ok v) :
    (s.put name v).resolve token = .ok value := by
  by_cases hliteral : (∃ n, Spells token n) ∨ ∃ n, Denotes token n
  · rw [resolve_congr_iff.mpr hliteral (s.put name v) s, hvalue]
  by_cases hname : token = name
  · obtain ⟨hspells, hdenotes⟩ := not_or.mp hliteral
    obtain ⟨-, -, rfl⟩ := Variable.make_eq_ok_iff.mp hv
    rw [resolve_of_name _ hspells hdenotes, get, find?_put, if_pos hname]
    rfl
  · rw [resolve_put_of_ne s hname, hvalue]

end Store

/-! ### Assignments -/

/-- An assignment: a statement that sets a name to what a token stands for. -/
structure Assignment where
  /-- The text of the statement. -/
  statement : String
  /-- The name that is set. -/
  name : String
  /-- The token whose value it gets. -/
  token : String
  parse_eq : Command.parse statement = .ok ⟨.set, [name, token]⟩

namespace Assignment

variable {a b : Assignment}

/-- The assignment as it finds a store. -/
def moment (a : Assignment) (s : Store) : Moment := ⟨a.statement, s⟩

/-- The variable that an assignment makes of what a store holds, or why it makes none. -/
def bound (a : Assignment) (s : Store) : Except StatementError Variable :=
  (s.resolve a.token).bind (Variable.make a.name)

/-- An assignment ends without a value if it makes a variable, which it stores. -/
theorem outcome_and_next (a : Assignment) (s : Store) :
    (a.moment s).outcome = (a.bound s).map (fun _ => none) ∧
      (a.moment s).next =
        match a.bound s with
        | .ok v => s.put a.name v
        | .error _ => s := by
  rw [Moment.outcome, Moment.next, moment, outcome_of_parse a.parse_eq, store_of_parse a.parse_eq]
  show (Command.assign _ s).outcome = _ ∧ (Command.assign _ s).store = _
  rw [Command.assign_eq, bound]
  dsimp only
  cases s.resolve a.token with
  | error e => exact ⟨rfl, rfl⟩
  | ok value =>
    simp only [Except.bind]
    cases Variable.make a.name value <;> exact ⟨rfl, rfl⟩

theorem outcome_eq (a : Assignment) (s : Store) :
    (a.moment s).outcome = (a.bound s).map fun _ => none := (a.outcome_and_next s).1

theorem next_eq (a : Assignment) (s : Store) :
    (a.moment s).next =
      match a.bound s with
      | .ok v => s.put a.name v
      | .error _ => s := (a.outcome_and_next s).2

/-- What a successful assignment makes has the value of its token. -/
theorem exists_of_outcome_eq_ok {s : Store} {answer : Option Value}
    (h : (a.moment s).outcome = .ok answer) :
    ∃ value v, s.resolve a.token = .ok value ∧ Variable.make a.name value = .ok v ∧
      a.bound s = .ok v := by
  rw [outcome_eq] at h
  obtain ⟨v, hv, -⟩ := Outcome.map_eq_ok_iff.mp h
  cases hvalue : s.resolve a.token with
  | error e =>
    rw [bound, hvalue] at hv
    cases hv
  | ok value =>
    refine ⟨value, v, rfl, ?_, hv⟩
    rwa [bound, hvalue] at hv

/-- A successful assignment that is carried out again changes nothing. -/
theorem again {s : Store} {answer : Option Value} (h : (a.moment s).outcome = .ok answer) :
    (a.moment (a.moment s).next).outcome = .ok none ∧
      (a.moment (a.moment s).next).next = (a.moment s).next := by
  obtain ⟨value, v, hvalue, hv, hbound⟩ := exists_of_outcome_eq_ok h
  have hnext : (a.moment s).next = s.put a.name v := by rw [next_eq, hbound]
  have hagain : a.bound (s.put a.name v) = .ok v := by
    rw [bound, Store.resolve_put_self hvalue hv]
    exact hv
  rw [hnext, outcome_eq, next_eq, hagain]
  exact ⟨rfl, s.put_put a.name v v⟩

/-! ### Independence -/

/-- Neither of two assignments reads or writes the name that the other one writes. -/
structure Independent (a b : Assignment) : Prop where
  name_ne : a.name ≠ b.name
  token_ne : a.token ≠ b.name
  ne_token : b.token ≠ a.name

namespace Independent

instance : Std.Symm Independent where
  symm _ _ h := ⟨h.name_ne.symm, h.ne_token, h.token_ne⟩

/-- What an assignment makes is the same after another one that is independent of it. -/
theorem bound_next (h : Independent a b) (s : Store) : b.bound (a.moment s).next = b.bound s := by
  rw [bound, bound, next_eq]
  split
  next v _ => rw [s.resolve_put_of_ne h.ne_token]
  next => rfl

theorem outcome_next (h : Independent a b) (s : Store) :
    (b.moment (a.moment s).next).outcome = (b.moment s).outcome := by
  rw [outcome_eq, h.bound_next, outcome_eq]

/-- Independent assignments leave the same store in both orders. -/
theorem next_comm (h : Independent a b) (s : Store) :
    (b.moment (a.moment s).next).next = (a.moment (b.moment s).next).next := by
  have h' : Independent b a := symm h
  rw [next_eq b, h.bound_next, next_eq a (b.moment s).next, h'.bound_next, next_eq a s, next_eq b s]
  cases a.bound s with
  | error e => rfl
  | ok v =>
    cases b.bound s with
    | error e => rfl
    | ok w => exact s.put_comm h.name_ne.symm w v

end Independent

/-- Assignments to different names, none of which is a token of theirs, are independent. -/
theorem pairwise_independent {l : List Assignment} (hnames : (l.map name).Nodup)
    (htokens : ∀ a ∈ l, a.token ∉ l.map name) : l.Pairwise Independent := by
  refine List.Pairwise.imp_of_mem (fun {a b} ha hb hne => ?_) (List.pairwise_map.mp hnames)
  refine ⟨hne, fun heq => htokens a ha ?_, fun heq => htokens b hb ?_⟩
  · exact heq ▸ List.mem_map_of_mem hb
  · exact heq ▸ List.mem_map_of_mem ha

/-! ### Lists of assignments -/

/-- Each of several independent assignments ends as it would end if it were the first. -/
theorem outcomes_eq {l : List Assignment} (h : l.Pairwise Independent) (s : Store) :
    (s.moments (l.map statement)).map Moment.outcome = l.map fun a => (a.moment s).outcome := by
  induction l generalizing s with
  | nil => rfl
  | cons a l ih =>
    obtain ⟨ha, hl⟩ := List.pairwise_cons.mp h
    have hrest : (Store.moments (a.moment s).next (l.map statement)).map Moment.outcome =
        l.map fun b => (b.moment s).outcome := by
      rw [ih hl]
      exact List.map_congr_left fun b hb => (ha b hb).outcome_next s
    exact congrArg _ hrest

/-- Independent assignments leave the same store in all orders. -/
theorem afterStatements_perm {l order : List Assignment} (hperm : l.Perm order)
    (h : l.Pairwise Independent) (s : Store) :
    s.afterStatements (order.map statement) = s.afterStatements (l.map statement) := by
  rw [Store.afterStatements, Store.afterStatements, List.foldl_map, List.foldl_map]
  refine (hperm.foldl_eq' (fun a ha b hb t => ?_) s).symm
  by_cases hab : a = b
  · rw [hab]
  · exact (h.forall ha hb hab).next_comm t

end Assignment

/-- **Independent assignments can be carried out in any order.** Let assignments set different names,
none of which is the token of any of them. Whatever the store, and whatever the order in which they
are carried out, each of them ends as it would end if it were the first, without a value or with the
same error, and they leave the same store, with the same names in the same order and the same text.
And an assignment that succeeds and is carried out again at once ends without a value and leaves the
store as it is. -/
theorem assignments_commute :
    (∀ (s : Store) {l order : List Assignment}, l.Perm order →
      (l.map Assignment.name).Nodup → (∀ a ∈ l, a.token ∉ l.map Assignment.name) →
      (s.moments (order.map Assignment.statement)).map Moment.outcome =
          order.map (fun a => (executeStatement a.statement s).outcome) ∧
        s.afterStatements (order.map Assignment.statement) =
          s.afterStatements (l.map Assignment.statement)) ∧
    (∀ (s : Store) (a : Assignment) {answer : Option Value},
      (executeStatement a.statement s).outcome = .ok answer →
      (executeStatement a.statement (executeStatement a.statement s).store).outcome = .ok none ∧
        (executeStatement a.statement (executeStatement a.statement s).store).store =
          (executeStatement a.statement s).store) := by
  refine ⟨fun s {l order} hperm hnames htokens => ?_, fun s a {answer} h => Assignment.again h⟩
  have hindependent := Assignment.pairwise_independent hnames htokens
  have horder : order.Pairwise Assignment.Independent :=
    (hperm.pairwise_iff fun h => symm h).mp hindependent
  exact ⟨Assignment.outcomes_eq horder s, Assignment.afterStatements_perm hperm hindependent s⟩

/-- Of these assignments the first one in the list replaces a variable, the second one is refused and
the last one reads another variable; the order is the reverse. -/
theorem assignments_commute_reversed :
    ((Store.after [.execute "set a 5; set d M"]).moments
        ["set c d", "set X 7", "set a V"]).map Moment.outcome =
      [.ok none, .error (.invalidName "X"), .ok none] ∧
    (Store.after [.execute "set a 5; set d M"]).afterStatements ["set c d", "set X 7", "set a V"] =
      (Store.after [.execute "set a 5; set d M"]).afterStatements
        ["set a V", "set X 7", "set c d"] ∧
    (executeStatement "set c d"
      (executeStatement "set c d" (.after [.execute "set a 5; set d M"])).store).outcome =
        .ok none := by
  have hperm : ([⟨"set a V", "a", "V", by cbv⟩, ⟨"set X 7", "X", "7", by cbv⟩,
        ⟨"set c d", "c", "d", by cbv⟩] : List Assignment).Perm
      [⟨"set c d", "c", "d", by cbv⟩, ⟨"set X 7", "X", "7", by cbv⟩,
        ⟨"set a V", "a", "V", by cbv⟩] := (List.reverse_perm _).symm
  obtain ⟨houtcomes, hstore⟩ := assignments_commute.1 (.after [.execute "set a 5; set d M"]) hperm
    (by decide) (by decide)
  obtain ⟨hagain, -⟩ := assignments_commute.2 (.after [.execute "set a 5; set d M"])
    ⟨"set c d", "c", "d", by cbv⟩ (show (executeStatement "set c d" _).outcome = .ok none by cbv)
  exact ⟨houtcomes.trans (by cbv), hstore, hagain⟩

end Roman
