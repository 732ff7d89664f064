import Roman.Outcome
import Roman.Proofs.Session

/-!
# What a store holds

`Store.Valid` is what every store has that a program can get hold of: each variable stands
under its own name, which is not empty and no numeral, with a numeral or an integer and the
kind of it, and the names increase. Storing a variable that `Variable.make` gave keeps it
(`Store.Valid.put`), whether the store is used on its own (`Store.afterSets`) or by an
interpreter (`Store.after`).
-/

namespace Roman

/-- A variable that may stand in a store under a name. -/
structure Variable.StandsAt (v : Variable) (name : String) : Prop where
  /-- It has that name. -/
  name_eq : v.name = name
  /-- The name is not empty. -/
  name_ne : name ≠ ""
  /-- The name is not read as a numeral. -/
  not_accepts : Numeral.accepts name = false
  /-- The value is a numeral, between 1 and 3999, or an integer. -/
  value_eq : (∃ n, v.value = .numeral n ∧ 1 ≤ n.decimal ∧ n.decimal ≤ 3999) ∨
    ∃ i, v.value = .integer i
  /-- The kind is the kind of the value. -/
  kind_eq : v.kind = v.value.kind

/-- What a store has that was filled by nothing but assignments. -/
structure Store.Valid (s : Store) : Prop where
  /-- Each variable may stand where it stands. -/
  standsAt : ∀ {name v}, (name, v) ∈ s.entries → v.StandsAt name
  /-- The names increase, so no name has two variables. -/
  increasing : s.names.Pairwise (· < ·)

/-! ### Variables that are made -/

theorem Variable.standsAt_of_make {name : String} {value : Value} {v : Variable}
    (h : make name value = .ok v) :
    v.StandsAt name := by
  obtain ⟨hname, hstorable, rfl⟩ := make_eq_ok_iff.mp h
  obtain ⟨hne, hnumeral⟩ := isName_iff.mp hname
  refine ⟨rfl, hne, hnumeral, ?_, rfl⟩
  cases value with
  | numeral n => exact .inl ⟨n, rfl, n.one_le, n.le_max⟩
  | integer i => exact .inr ⟨i, rfl⟩
  | real x => cases hstorable
  | text t => cases hstorable

/-! ### Entries in order -/

theorem mem_insertEntry {name : String} {v : Variable} {entries : List (String × Variable)}
    {e : String × Variable} (h : e ∈ insertEntry name v entries) : e = (name, v) ∨ e ∈ entries := by
  induction entries with
  | nil => grind [insertEntry]
  | cons first rest ih => grind [insertEntry]

/-- Entries in increasing order stay so when one is inserted: it comes before the first
one with a larger name, or takes the place of the one with its own. -/
theorem pairwise_insertEntry (name : String) (v : Variable) {entries : List (String × Variable)}
    (h : entries.Pairwise fun e f => e.1 < f.1) :
    (insertEntry name v entries).Pairwise fun e f => e.1 < f.1 := by
  induction entries with
  | nil => exact List.pairwise_singleton _ _
  | cons first rest ih =>
    obtain ⟨other, w⟩ := first
    obtain ⟨hfirst, hrest⟩ := List.pairwise_cons.mp h
    rw [insertEntry]
    split
    next hlt =>
      refine List.pairwise_cons.mpr ⟨fun e he => ?_, h⟩
      obtain rfl | he := List.mem_cons.mp he
      · exact hlt
      · exact String.lt_trans hlt (hfirst e he)
    next hlt =>
      split
      next heq =>
        subst heq
        exact List.pairwise_cons.mpr ⟨hfirst, hrest⟩
      next hne =>
        have hother : other < name :=
          String.not_le.mp fun hle => hne (String.le_antisymm hle (String.not_lt.mp hlt))
        refine List.pairwise_cons.mpr ⟨fun e he => ?_, ih hrest⟩
        obtain rfl | he := mem_insertEntry he
        · exact hother
        · exact hfirst e he

/-! ### Assignments keep it -/

namespace Store

theorem valid_empty : Valid .empty where
  standsAt h := nomatch h
  increasing := .nil

theorem Valid.put {s : Store} {name : String} {value : Value} {v : Variable} (h : s.Valid)
    (hv : Variable.make name value = .ok v) : (s.put name v).Valid where
  standsAt he := by
    obtain he | he := mem_insertEntry he
    · cases he
      exact Variable.standsAt_of_make hv
    · exact h.standsAt he
  increasing := by
    have hentries := List.pairwise_map.mp h.increasing
    exact List.pairwise_map.mpr (pairwise_insertEntry name v hentries)

/-- The store after names were set to values one after the other; a name and a value
that make no variable leave it as it was. -/
def afterSets : List (String × Value) → Store → Store
  | [], s => s
  | (name, value) :: rest, s =>
    match s.set name value with
    | .ok t => afterSets rest t
    | .error _ => afterSets rest s

theorem Valid.afterSets (bindings : List (String × Value)) {s : Store} (h : s.Valid) :
    (s.afterSets bindings).Valid := by
  induction bindings generalizing s with
  | nil => exact h
  | cons binding rest ih =>
    obtain ⟨name, value⟩ := binding
    rw [Store.afterSets]
    split
    next t ht =>
      obtain ⟨v, hv, rfl⟩ := Outcome.map_eq_ok_iff.mp ht
      exact ih (h.put hv)
    next => exact ih h

/-- Every store of an interpreter is valid. -/
theorem valid_after (calls : List Call) : (after calls).Valid :=
  after_induction (fun h _ hbound => h.put hbound) valid_empty calls

/-! ### Looking names up -/

theorem find?_isSome_iff (s : Store) (name : String) :
    (s.find? name).isSome = true ↔ name ∈ s.names := by
  rw [find?, List.lookup_isSome_iff, names, List.mem_map]
  simp only [beq_iff_eq, eq_comm (a := name)]

theorem contains_iff (s : Store) (name : String) : s.contains name = true ↔ name ∈ s.names := by
  simp [contains, names]

theorem get_eq_ok_iff (s : Store) (name : String) (v : Variable) :
    s.get name = .ok v ↔ s.find? name = some v := by
  rw [get]
  cases s.find? name <;> simp

/-- The variable that is found under a name is that of the first entry with the name. -/
theorem find?_eq_some_iff {s : Store} {name : String} {v : Variable} :
    s.find? name = some v ↔
      ∃ before after, s.entries = before ++ (name, v) :: after ∧ name ∉ before.map Prod.fst := by
  rw [find?, List.lookup_eq_some_iff]
  simp only [bne_iff_ne, ne_eq, List.mem_map, not_exists, not_and, eq_comm (a := name)]

theorem find?_eq_none_iff {s : Store} {name : String} : s.find? name = none ↔ name ∉ s.names := by
  rw [← find?_isSome_iff, Option.not_isSome_iff_eq_none]

theorem mem_of_find? {s : Store} {name : String} {v : Variable} (h : s.find? name = some v) :
    (name, v) ∈ s.entries := by
  obtain ⟨before, after, hentries, -⟩ := find?_eq_some_iff.mp h
  rw [hentries]
  exact List.mem_append_right before (List.mem_cons_self ..)

theorem Valid.nodup_names {s : Store} (h : s.Valid) : s.names.Nodup := by
  refine h.increasing.imp fun {name other} hlt => ?_
  rintro rfl
  exact String.lt_irrefl name hlt

/-- The names of a store being different, each entry is found. -/
theorem Valid.mem_entries_iff {s : Store} (h : s.Valid) {name : String} {v : Variable} :
    (name, v) ∈ s.entries ↔ s.find? name = some v := by
  constructor
  · intro hmem
    obtain ⟨before, after, hentries⟩ := List.append_of_mem hmem
    have hpairs := List.pairwise_map.mp h.increasing
    rw [hentries] at hpairs
    refine find?_eq_some_iff.mpr ⟨before, after, hentries, fun hname => ?_⟩
    obtain ⟨e, he, heq⟩ := List.mem_map.mp hname
    have hlt : e.1 < name := (List.pairwise_append.mp hpairs).2.2 e he (name, v) List.mem_cons_self
    exact String.lt_irrefl name (heq ▸ hlt)
  · exact mem_of_find?

/-- **What holds of every store.** It holds of the store after any sequence of values
set to names, and of the store of an interpreter after any sequence of calls. Each
variable stands under its own name, which is not empty and no numeral; its value is a
numeral between 1 and 3999 or an integer, and its kind is the kind of that. The names
increase strictly, the size is how many there are, and finding, asking for and getting
a variable all know the same names. -/
theorem valid_of_run {s : Store}
    (h : (∃ bindings, s = Store.empty.afterSets bindings) ∨ ∃ calls, s = after calls) :
    s.Valid ∧ s.size = s.names.length ∧
      ∀ name, ((s.find? name).isSome = true ↔ name ∈ s.names) ∧
        (s.contains name = true ↔ name ∈ s.names) ∧
        ((∃ v, s.get name = .ok v) ↔ name ∈ s.names) := by
  have hvalid : s.Valid := by
    obtain ⟨bindings, rfl⟩ | ⟨calls, rfl⟩ := h
    · exact valid_empty.afterSets bindings
    · exact valid_after calls
  refine ⟨hvalid, (List.length_map _).symm, fun name => ?_⟩
  refine ⟨s.find?_isSome_iff name, s.contains_iff name, ?_⟩
  rw [← s.find?_isSome_iff name, Option.isSome_iff_exists]
  exact exists_congr fun v => s.get_eq_ok_iff name v

/-- Of these statements the first fails, and the last replaces what the second one
stored. -/
theorem valid_of_run_replaced :
    (after [.execute "set X 5; set b 7; set a X", .executeStatement "set b a"]).toText =
        "a = X\nb = X" ∧
      (after [.execute "set X 5; set b 7; set a X", .executeStatement "set b a"]).Valid :=
  ⟨by cbv, (valid_of_run (.inr ⟨_, rfl⟩)).1⟩

end Store

end Roman
