import Roman.Proofs.ErrorSurface

/-!
# The journal

The journal of a line tells what happened, and nothing else. It is made of blocks, one for each
statement (`Block`), and each block tells of its statement (`Block.Tells`): that it is a command,
what its tokens stand for, up to the first that stands for nothing, what is to be set, what is
stored, and why it fails. There is one block only that tells of a statement and the store it
finds (`Block.Tells.unique`), and it is what is recorded (`Moment.records_eq`).

That a name is to be set is recorded before it is known whether it may be; what is recorded of
variables and failures is what became of them. So the store can be rebuilt from the one, and the
other is what the line notes (`Run.journal_faithful`).
-/

namespace Roman

/-! ### What a record tells -/

namespace Record

/-- What there is to tell of a statement. -/
inductive Stage where
  | dispatching
  | resolved
  | setting
  | binding
  | failed
  deriving DecidableEq

/-- The stage that a record tells of. -/
def stage : Record → Stage
  | dispatching _ _ => .dispatching
  | resolved _ _ => .resolved
  | setting _ _ => .setting
  | binding _ => .binding
  | failed _ => .failed

/-- The words that a record of a stage begins with. -/
def Stage.opening : Stage → String
  | dispatching => "dispatching '"
  | resolved => "resolved '"
  | setting => "set "
  | binding => "binding "
  | failed => "Error in command '"

/-- All stages, in the order in which they are told. -/
def Stage.all : List Stage := [dispatching, resolved, setting, binding, failed]

/-- The stage that a text tells of. -/
def Stage.read? (text : String) : Option Stage :=
  all.find? fun t => t.opening.toList.isPrefixOf text.toList

theorem Stage.read?_opening_append (t : Stage) (rest : String) :
    read? (t.opening ++ rest) = some t := by
  -- no two openings begin with the same character, so the rest is never looked at
  rw [read?, String.toList_append]
  cases t <;> rfl

theorem exists_message_eq (r : Record) : ∃ rest, r.message = r.stage.opening ++ rest := by
  cases r with
  | dispatching statement category =>
    refine ⟨statement ++ ("' as " ++ category.name), ?_⟩
    simp only [← String.append_assoc]
    rfl
  | resolved token value =>
    refine ⟨token ++ ("' to " ++ value.toText), ?_⟩
    simp only [← String.append_assoc]
    rfl
  | setting name token =>
    refine ⟨name ++ (" to '" ++ (token ++ "'")), ?_⟩
    simp only [← String.append_assoc]
    rfl
  | binding bound =>
    refine ⟨bound.toText ++ (" (" ++ (bound.kind.name ++ ")")), ?_⟩
    simp only [← String.append_assoc]
    rfl
  | failed failure =>
    refine ⟨failure.statement ++ ("': " ++ failure.error.message), ?_⟩
    simp only [← String.append_assoc]
    rfl

/-- That tokens are resolved is told at a level of its own. -/
theorem level_eq_trace_iff (r : Record) : r.level = .trace ↔ r.stage = .resolved := by
  cases r <;> simp [level, stage]

/-- The words of a record say which stage it tells of. -/
theorem read?_message (r : Record) : Stage.read? r.message = some r.stage := by
  obtain ⟨rest, hr⟩ := r.exists_message_eq
  rw [hr, Stage.read?_opening_append]

/-- The variable that is stored, if a record tells of one. -/
def bound? : Record → Option Variable
  | binding v => some v
  | dispatching _ _ | resolved _ _ | setting _ _ | failed _ => none

/-- The failure that a record tells of, if any. -/
def failure? : Record → Option Failure
  | failed f => some f
  | dispatching _ _ | resolved _ _ | setting _ _ | binding _ => none

/-- The texts that read as failures are those of the failures. -/
theorem filter_read?_failed (rs : List Record) :
    (rs.map message).filter (fun text => Stage.read? text = some .failed) =
      (rs.filterMap failure?).map Failure.message := by
  induction rs with
  | nil => rfl
  | cons r rs ih =>
    rw [List.map_cons, List.filter_cons, List.filterMap_cons, ih, read?_message]
    cases r <;> rfl

end Record

/-! ### Tokens one after the other -/

/-- What tokens stand for, one after the other, up to the first that stands for nothing. -/
def Store.valuesInTurn (s : Store) : List String → List (String × Value)
  | [] => []
  | token :: tokens =>
    match s.resolve token with
    | .ok value => (token, value) :: s.valuesInTurn tokens
    | .error _ => []

namespace Store

variable {s : Store}

theorem valuesInTurn_of_ok {token : String} {value : Value} (h : s.resolve token = .ok value)
    (tokens : List String) :
    s.valuesInTurn (token :: tokens) = (token, value) :: s.valuesInTurn tokens := by
  rw [valuesInTurn, h]

theorem valuesInTurn_of_error {token : String} {e : StatementError}
    (h : s.resolve token = .error e) (tokens : List String) :
    s.valuesInTurn (token :: tokens) = [] := by
  rw [valuesInTurn, h]

theorem map_fst_valuesInTurn (s : Store) (tokens : List String) :
    (s.valuesInTurn tokens).map Prod.fst = tokens.takeWhile fun token => (s.resolve token).isOk := by
  induction tokens with
  | nil => rfl
  | cons token tokens ih =>
    cases h : s.resolve token with
    | ok value =>
      rw [valuesInTurn_of_ok h, List.map_cons, ih, List.takeWhile_cons_of_pos (by rw [h]; rfl)]
    | error e =>
      rw [valuesInTurn_of_error h, List.map_nil,
        List.takeWhile_cons_of_neg (by rw [h]; exact Bool.false_ne_true)]

theorem resolve_of_mem_valuesInTurn {tokens : List String} {token : String} {value : Value}
    (h : (token, value) ∈ s.valuesInTurn tokens) : s.resolve token = .ok value := by
  induction tokens with
  | nil => cases h
  | cons first tokens ih =>
    cases hfirst : s.resolve first with
    | ok found =>
      rw [valuesInTurn_of_ok hfirst] at h
      cases h with
      | head => exact hfirst
      | tail _ h => exact ih h
    | error e =>
      rw [valuesInTurn_of_error hfirst] at h
      cases h

/-- Tokens that stand for something determine what they are resolved to. -/
theorem eq_of_map_fst {found found' : List (String × Value)}
    (htokens : found.map Prod.fst = found'.map Prod.fst)
    (h : ∀ token value, (token, value) ∈ found → s.resolve token = .ok value)
    (h' : ∀ token value, (token, value) ∈ found' → s.resolve token = .ok value) :
    found = found' := by
  -- resolving the tokens once more gives the pairs back
  have hvalues {found : List (String × Value)}
      (h : ∀ token value, (token, value) ∈ found → s.resolve token = .ok value) :
      (found.map Prod.fst).map (fun token => (token, s.resolve token)) =
        found.map (Prod.map id Except.ok) := by
    rw [List.map_map]
    refine List.map_congr_left fun pair hpair => ?_
    rw [Function.comp_apply, h pair.1 pair.2 hpair]
    rfl
  have hok : Function.Injective (Except.ok : Value → Except StatementError Value) :=
    fun _ _ h => Except.ok.inj h
  refine List.map_injective_iff.mpr (Function.injective_id.prodMap hok) ?_
  rw [← hvalues h, htokens, hvalues h']

end Store

/-! ### What a command records -/

namespace Command

/-- The arguments whose values a command asks for: none if their number is wrong, and not the name
that is set. -/
def valueTokens (c : Command) : List String :=
  if c.arguments.length = c.keyword.arity then
    if c.keyword = .set then c.arguments.tail else c.arguments
  else []

/-- The name that a command is about to set, with the token; it must stand for something. -/
def setting? (c : Command) (s : Store) : Option (String × String) :=
  match c with
  | ⟨.set, [name, token]⟩ => (s.resolve token).toOption.map fun _ => (name, token)
  | _ => none

/-- The variable that a command stores. -/
def bound? (c : Command) (s : Store) : Option Variable :=
  match c with
  | ⟨.set, [name, token]⟩ => ((s.resolve token).bind (Variable.make name)).toOption
  | _ => none

/-- What a command records when it is carried out in its own category. -/
def records (c : Command) (s : Store) : List Record :=
  ((s.valuesInTurn c.valueTokens).map fun (token, value) => Record.resolved token value) ++
    ((c.setting? s).toList.map fun (name, token) => Record.setting name token) ++
    (c.bound? s).toList.map Record.binding

variable {s : Store}

theorem setting?_of_ne {c : Command} (h : c.keyword ≠ .set) : c.setting? s = none := by
  rw [setting?]
  rintro name token rfl
  exact h rfl

theorem bound?_of_ne {c : Command} (h : c.keyword ≠ .set) : c.bound? s = none := by
  rw [bound?]
  rintro name token rfl
  exact h rfl

theorem records_of_ne {c : Command} (h : c.keyword ≠ .set) :
    c.records s =
      (s.valuesInTurn c.valueTokens).map fun (token, value) => Record.resolved token value := by
  rw [records, setting?_of_ne h, bound?_of_ne h]
  simp

theorem records_assign (arguments : List String) (s : Store) :
    (assign ⟨.set, arguments⟩ s).records = records ⟨.set, arguments⟩ s := by
  rw [assign_eq]
  match arguments with
  | [] | [_] | _ :: _ :: _ :: _ => rfl
  | [name, token] =>
    have htokens : valueTokens ⟨.set, [name, token]⟩ = [token] := rfl
    rw [records, setting?, bound?, htokens]
    dsimp only
    cases hvalue : s.resolve token with
    | error e =>
      rw [Store.valuesInTurn_of_error hvalue]
      rfl
    | ok value =>
      rw [Store.valuesInTurn_of_ok hvalue]
      simp only [Except.bind]
      cases Variable.make name value <;> rfl

theorem records_compute {c : Command} (hcategory : c.keyword.category = .arithmetic) (s : Store) :
    (c.compute s).records = c.records s := by
  obtain ⟨keyword, arguments⟩ := c
  obtain ⟨harity, operator, hoperator⟩ := Keyword.exists_operator hcategory
  have hset : keyword ≠ .set := by
    rintro rfl
    cases hcategory
  rw [compute_eq, hoperator, records_of_ne hset, valueTokens, harity, if_neg hset]
  match arguments with
  | [] | [_] | _ :: _ :: _ :: _ => rfl
  | [a, b] =>
    have hlength : [a, b].length = 2 := rfl
    dsimp only
    rw [if_pos hlength]
    cases ha : s.resolve a with
    | error e =>
      rw [Store.valuesInTurn_of_error ha]
      rfl
    | ok left =>
      -- only now the second argument is resolved
      rw [Store.valuesInTurn_of_ok ha]
      cases hb : s.resolve b with
      | error e =>
        rw [Store.valuesInTurn_of_error hb]
        rfl
      | ok right =>
        rw [Store.valuesInTurn_of_ok hb]
        rfl

/-- A command of one argument records what that stands for. -/
theorem records_of_arity_one {c : Command} (harity : c.keyword.arity = 1) (s : Store) :
    c.records s =
      match c.arguments with
      | [token] =>
        match s.resolve token with
        | .ok value => [.resolved token value]
        | .error _ => []
      | _ => [] := by
  obtain ⟨keyword, arguments⟩ := c
  have hset : keyword ≠ .set := by
    rintro rfl
    cases harity
  rw [records_of_ne hset, valueTokens, harity, if_neg hset]
  match arguments with
  | [] | _ :: _ :: _ => rfl
  | [token] =>
    have hlength : [token].length = 1 := rfl
    dsimp only
    rw [if_pos hlength, Store.valuesInTurn]
    cases s.resolve token <;> rfl

theorem records_convert {c : Command} (harity : c.keyword.arity = 1) (s : Store) :
    (c.convert s).records = c.records s := by
  rw [convert_eq, records_of_arity_one harity]
  obtain ⟨keyword, arguments⟩ := c
  match arguments with
  | [] | _ :: _ :: _ => rfl
  | [token] =>
    dsimp only
    cases s.resolve token <;> rfl

theorem records_display {c : Command} (harity : c.keyword.arity = 1) (s : Store) :
    (c.display s).records = c.records s := by
  rw [display_eq, records_of_arity_one harity]
  obtain ⟨keyword, arguments⟩ := c
  match arguments with
  | [] | _ :: _ :: _ => rfl
  | [token] =>
    dsimp only
    cases s.resolve token <;> rfl

/-- A command that is carried out in its own category records what its tokens stand for, what it is
about to set, and what it stores. -/
theorem records_handle (c : Command) (s : Store) :
    (c.handle c.category s).records = c.records s := by
  obtain ⟨keyword, arguments⟩ := c
  cases keyword with
  | set => exact records_assign arguments s
  | add | subtract | multiply | divide => exact records_compute rfl s
  | convert => exact records_convert rfl s
  | display => exact records_display rfl s

theorem setting?_eq_some_iff {c : Command} {name token : String} :
    c.setting? s = some (name, token) ↔
      c = ⟨.set, [name, token]⟩ ∧ ∃ value, s.resolve token = .ok value := by
  constructor
  · intro h
    rw [setting?.eq_def] at h
    split at h
    next =>
      obtain ⟨value, hvalue, hpair⟩ := Option.map_eq_some_iff.mp h
      cases hpair
      exact ⟨rfl, value, Outcome.toOption_eq_some_iff.mp hvalue⟩
    next => cases h
  · rintro ⟨rfl, value, hvalue⟩
    rw [setting?, Outcome.toOption_eq_some_iff.mpr hvalue]
    rfl

theorem bound?_eq_some_iff {c : Command} {v : Variable} :
    c.bound? s = some v ↔ ∃ name token value, c = ⟨.set, [name, token]⟩ ∧
      s.resolve token = .ok value ∧ Variable.make name value = .ok v := by
  constructor
  · intro h
    rw [bound?.eq_def] at h
    split at h
    next name token =>
      obtain ⟨value, hvalue, hv⟩ :=
        Outcome.bind_eq_ok_iff.mp (Outcome.toOption_eq_some_iff.mp h)
      exact ⟨name, token, value, rfl, hvalue, hv⟩
    next => cases h
  · rintro ⟨name, token, value, rfl, hvalue, hv⟩
    rw [bound?]
    exact Outcome.toOption_eq_some_iff.mpr (Outcome.bind_eq_ok_iff.mpr ⟨value, hvalue, hv⟩)

end Command

/-! ### Blocks -/

/-- What there is to tell of a statement, in the order of the records. -/
@[ext] structure Block where
  /-- The text of the statement. -/
  statement : String
  /-- The category of the command that it is. -/
  dispatched : Option Category
  /-- The tokens that are resolved, in order, with what they stand for. -/
  resolved : List (String × Value)
  /-- The name that is to be set, with the token. -/
  setting : Option (String × String)
  /-- The variable that is stored. -/
  bound : Option Variable
  /-- Why the statement fails. -/
  failure : Option Failure

/-- The tokens whose values the statement of a moment asks for. -/
def Moment.valueTokens (m : Moment) : List String :=
  match Command.parse m.statement with
  | .ok c => c.valueTokens
  | .error _ => []

namespace Block

/-- The records of a block. -/
def records (b : Block) : List Record :=
  b.dispatched.toList.map (Record.dispatching b.statement) ++
    ((b.resolved.map fun (token, value) => Record.resolved token value) ++
      (b.setting.toList.map fun (name, token) => Record.setting name token) ++
      b.bound.toList.map Record.binding) ++
    b.failure.toList.map Record.failed

/-- A block tells of a statement and the store that it finds, when the statement is carried out. -/
structure Tells (b : Block) (m : Moment) : Prop where
  /-- It is the one that is carried out. -/
  statement_eq : b.statement = m.statement
  /-- It is dispatched in a category if it is a command of that category. -/
  dispatched_iff : ∀ category, b.dispatched = some category ↔
    ∃ c, Command.parse m.statement = .ok c ∧ c.category = category
  /-- If there are as many arguments as the keyword takes, the tokens are resolved that are to
  have a value, in turn, up to the first that stands for nothing. -/
  resolved_tokens : b.resolved.map Prod.fst =
    m.valueTokens.takeWhile fun token => (m.store.resolve token).isOk
  /-- They are resolved to what they stand for. -/
  resolved_values : ∀ token value, (token, value) ∈ b.resolved → m.store.resolve token = .ok value
  /-- A name is to be set if its token stands for a value. -/
  setting_iff : ∀ name token, b.setting = some (name, token) ↔
    Command.parse m.statement = .ok ⟨.set, [name, token]⟩ ∧
      ∃ value, m.store.resolve token = .ok value
  /-- A variable is stored if the statement assigns; it has the name and the value, and the kind
  of that. -/
  bound_iff : ∀ v, b.bound = some v ↔
    ∃ name token value, m.Assigns name token value ∧ v = ⟨name, value, value.kind⟩
  /-- Nothing else happens to the store. -/
  next_eq : m.next = b.bound.elim m.store fun v => m.store.put v.name v
  /-- The failure is that of the statement, if it fails. -/
  failure_eq : b.failure = m.failure?

/-! ### A block tells all there is to tell -/

/-- No two blocks tell of the same statement and store. -/
theorem Tells.unique {b b' : Block} {m : Moment} (h : b.Tells m) (h' : b'.Tells m) : b = b' := by
  refine Block.ext ?_ ?_ ?_ ?_ ?_ ?_
  · rw [h.statement_eq, h'.statement_eq]
  · exact Option.ext fun category => by rw [h.dispatched_iff, h'.dispatched_iff]
  · refine Store.eq_of_map_fst ?_ h.resolved_values h'.resolved_values
    rw [h.resolved_tokens, h'.resolved_tokens]
  · exact Option.ext fun (name, token) => by rw [h.setting_iff, h'.setting_iff]
  · exact Option.ext fun v => by rw [h.bound_iff, h'.bound_iff]
  · rw [h.failure_eq, h'.failure_eq]

theorem filterMap_bound?_records (b : Block) :
    b.records.filterMap Record.bound? = b.bound.toList := by
  simp only [records, List.filterMap_append, List.filterMap_map, Function.comp_def, Record.bound?,
    List.filterMap_none, List.filterMap_some, List.nil_append, List.append_nil]

theorem filterMap_failure?_records (b : Block) :
    b.records.filterMap Record.failure? = b.failure.toList := by
  simp only [records, List.filterMap_append, List.filterMap_map, Function.comp_def, Record.failure?,
    List.filterMap_none, List.filterMap_some, List.nil_append, List.append_nil]

end Block

/-! ### The block of a statement -/

namespace Moment

/-- The block of the statement. -/
def block (m : Moment) : Block where
  statement := m.statement
  dispatched := (Command.parse m.statement).toOption.map Command.category
  resolved := m.store.valuesInTurn m.valueTokens
  setting := (Command.parse m.statement).toOption.bind fun c => c.setting? m.store
  bound := (Command.parse m.statement).toOption.bind fun c => c.bound? m.store
  failure := m.failure?

variable {m : Moment}

/-- A statement assigns if name and value make a variable. -/
theorem assigns_iff {name token : String} {value : Value} :
    m.Assigns name token value ↔ Command.parse m.statement = .ok ⟨.set, [name, token]⟩ ∧
      m.store.resolve token = .ok value ∧ ∃ v, Variable.make name value = .ok v := by
  constructor
  · intro h
    cases houtcome : m.outcome with
    | error e => cases (failed_of_error houtcome).symm.trans h.not_failed
    | ok answer =>
      obtain ⟨value', v, hvalue, hv, -⟩ := exists_put_of_ok h.parse_eq houtcome
      cases hvalue.symm.trans h.resolve_eq
      exact ⟨h.parse_eq, hvalue, v, hv⟩
  · rintro ⟨hparse, hvalue, v, hv⟩
    have houtcome : m.outcome = .ok none := by
      rw [outcome, outcome_of_parse hparse]
      show (Command.assign _ m.store).outcome = _
      rw [Command.assign_eq]
      dsimp only
      rw [hvalue]
      dsimp only
      rw [hv]
    exact ⟨hparse, not_failed_of_ok houtcome, hvalue⟩

theorem bound_block_iff {v : Variable} :
    m.block.bound = some v ↔
      ∃ name token value, m.Assigns name token value ∧ v = ⟨name, value, value.kind⟩ := by
  rw [block, Option.bind_eq_some_iff]
  simp only [Outcome.toOption_eq_some_iff, Command.bound?_eq_some_iff, assigns_iff]
  constructor
  · rintro ⟨c, hparse, name, token, value, rfl, hvalue, hv⟩
    obtain ⟨-, -, rfl⟩ := Variable.make_eq_ok_iff.mp hv
    exact ⟨name, token, value, ⟨hparse, hvalue, _, hv⟩, rfl⟩
  · rintro ⟨name, token, value, ⟨hparse, hvalue, v', hv⟩, rfl⟩
    obtain ⟨-, -, rfl⟩ := Variable.make_eq_ok_iff.mp hv
    exact ⟨_, hparse, name, token, value, rfl, hvalue, hv⟩

theorem setting_block_iff {name token : String} :
    m.block.setting = some (name, token) ↔
      Command.parse m.statement = .ok ⟨.set, [name, token]⟩ ∧
        ∃ value, m.store.resolve token = .ok value := by
  rw [block, Option.bind_eq_some_iff]
  simp only [Outcome.toOption_eq_some_iff, Command.setting?_eq_some_iff]
  constructor
  · rintro ⟨c, hparse, rfl, hvalue⟩
    exact ⟨hparse, hvalue⟩
  · rintro ⟨hparse, hvalue⟩
    exact ⟨_, hparse, rfl, hvalue⟩

/-- The variable of the block is all that becomes of the store. -/
theorem next_eq_block (m : Moment) :
    m.next = m.block.bound.elim m.store fun v => m.store.put v.name v := by
  cases hbound : m.block.bound with
  | some v =>
    obtain ⟨name, token, value, hassigns, rfl⟩ := bound_block_iff.mp hbound
    exact hassigns.next_eq
  | none =>
    -- only a statement that assigns changes the store, and its block has a variable
    cases m.ends with
    | failed _ hnext => exact hnext
    | answered _ _ hnext => exact hnext
    | assigned hassigns _ _ =>
      cases hbound.symm.trans (bound_block_iff.mpr ⟨_, _, _, hassigns, rfl⟩)

/-- The block of a statement tells of it. -/
theorem tells_block (m : Moment) : m.block.Tells m where
  statement_eq := rfl
  dispatched_iff category := by
    rw [block, Option.map_eq_some_iff]
    simp only [Outcome.toOption_eq_some_iff]
  resolved_tokens := m.store.map_fst_valuesInTurn m.valueTokens
  resolved_values _ _ h := Store.resolve_of_mem_valuesInTurn h
  setting_iff _ _ := setting_block_iff
  bound_iff _ := bound_block_iff
  next_eq := m.next_eq_block
  failure_eq := rfl

theorem forall₂_tells_block (ms : List Moment) :
    List.Forall₂ Block.Tells (ms.map Moment.block) ms := by
  rw [List.forall₂_map_left_iff, List.forall₂_same]
  exact fun m _ => m.tells_block

/-- A failure is recorded after what the statement has recorded before. -/
theorem records_ofStatement (m : Moment) :
    (Run.ofStatement m.statement m.store).records =
      (executeStatement m.statement m.store).records ++ m.failure?.toList.map Record.failed := by
  rw [Run.ofStatement, failure?, outcome]
  dsimp only
  cases (executeStatement m.statement m.store).outcome with
  | error e => rfl
  | ok answer => cases answer <;> exact (List.append_nil _).symm

/-- What is recorded of a statement is its block. -/
theorem records_eq (m : Moment) :
    (Run.ofStatement m.statement m.store).records = m.block.records := by
  rw [records_ofStatement, executeStatement_eq, Block.records, block, valueTokens]
  cases hparse : Command.parse m.statement with
  | error e => rfl
  | ok c =>
    dsimp only
    rw [Command.records_handle]
    rfl

end Moment

/-! ### Lines -/

/-- The store in which the variables of a journal have been stored, one after the other. -/
def Store.replay (s : Store) (rs : List Record) : Store :=
  (rs.filterMap Record.bound?).foldl (fun s v => s.put v.name v) s

namespace Store

theorem replay_append (s : Store) (rs more : List Record) :
    s.replay (rs ++ more) = (s.replay rs).replay more := by
  rw [replay, List.filterMap_append, List.foldl_append]
  rfl

theorem replay_block (m : Moment) : m.store.replay m.block.records = m.next := by
  rw [replay, Block.filterMap_bound?_records, m.next_eq_block]
  cases m.block.bound <;> rfl

/-- The blocks of statements that are carried out one after the other rebuild the store. -/
theorem replay_moments (s : Store) (texts : List String) :
    s.replay ((s.moments texts).flatMap fun m => m.block.records) = s.afterStatements texts := by
  induction texts generalizing s with
  | nil => rfl
  | cons text texts ih =>
    rw [moments, List.flatMap_cons, replay_append, afterStatements_cons, ← ih]
    exact congrArg (replay · _) (replay_block ⟨text, s⟩)

end Store

namespace Run

theorem records_inOrder (texts : List String) (s : Store) :
    (inOrder ofStatement texts s).records = (s.moments texts).flatMap fun m => m.block.records := by
  induction texts generalizing s with
  | nil => rfl
  | cons text texts ih =>
    rw [inOrder, Store.moments, List.flatMap_cons, ← Moment.records_eq]
    dsimp only
    rw [store_ofStatement, ih]
    rfl

theorem records_ofLine (line : String) (s : Store) :
    (ofLine line s).records = (s.moments (statements line)).flatMap fun m => m.block.records := by
  rw [ofLine, records_inOrder]

theorem filterMap_failure?_records (line : String) (s : Store) :
    (ofLine line s).records.filterMap Record.failure? = (ofLine line s).execution.failures := by
  rw [records_ofLine, failures_ofLine, List.filterMap_flatMap, List.filterMap_eq_flatMap_toList]
  exact List.flatMap_congr fun m _ => Block.filterMap_failure?_records m.block

/-- The first name is refused when its value is known already, and the second statement has a token
that stands for nothing. -/
example :
    (ofLine "set V 5; add 5 b" .empty).records =
      [.dispatching "set V 5" .assignment, .resolved "5" (.integer 5), .setting "V" "5",
        .failed ⟨"set V 5", .invalidName "V"⟩,
        .dispatching "add 5 b" .arithmetic, .resolved "5" (.integer 5),
        .failed ⟨"add 5 b", .unresolved "b"⟩] := by
  cbv

end Run

end Roman
