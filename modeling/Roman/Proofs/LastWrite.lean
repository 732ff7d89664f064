import Roman.Proofs.Moments
import Roman.Proofs.StoreInvariant

/-!
# The last assignment counts

What a name stands for is settled by the last assignment to it that succeeded: the value that
its token stood for at that moment, whatever has become of the token since
(`Store.find?_of_lastAssigns`). A name without such an assignment is as it was
(`Store.find?_of_not_assigned`), and no name is ever lost (`Store.names_afterStatements`). So
the store of an interpreter is the map of last assignments (`Store.after_eq_lastAssigns`).
-/

namespace Roman

/-- Some statement assigns to a name. -/
def Assigned (ms : List Moment) (name : String) : Prop :=
  ∃ m ∈ ms, ∃ token value, m.Assigns name token value

/-- The last statement that assigns to a name assigns a value to it. -/
def LastAssigns (ms : List Moment) (name : String) (value : Value) : Prop :=
  ∃ before m after token, ms = before ++ m :: after ∧ m.Assigns name token value ∧
    ¬ Assigned after name

theorem assigned_cons {m : Moment} {ms : List Moment} {name : String} :
    Assigned (m :: ms) name ↔ (∃ token value, m.Assigns name token value) ∨ Assigned ms name := by
  simp only [Assigned, List.exists_mem_cons_iff]

theorem lastAssigns_cons {m : Moment} {ms : List Moment} {name : String} {value : Value} :
    LastAssigns (m :: ms) name value ↔
      ((∃ token, m.Assigns name token value) ∧ ¬ Assigned ms name) ∨ LastAssigns ms name value := by
  constructor
  · rintro ⟨before, m', after, token, hms, hassigns, hafter⟩
    cases before with
    | nil =>
      cases hms
      exact .inl ⟨⟨token, hassigns⟩, hafter⟩
    | cons first before =>
      cases hms
      exact .inr ⟨before, m', after, token, rfl, hassigns, hafter⟩
  · rintro (⟨⟨token, hassigns⟩, hms⟩ | ⟨before, m', after, token, rfl, hassigns, hafter⟩)
    · exact ⟨[], m, ms, token, rfl, hassigns, hms⟩
    · exact ⟨m :: before, m', after, token, rfl, hassigns, hafter⟩

/-- Of the assignments to a name, one is the last. -/
theorem Assigned.exists_last {ms : List Moment} {name : String} (h : Assigned ms name) :
    ∃ value, LastAssigns ms name value := by
  induction ms with
  | nil =>
    obtain ⟨m, hm, -⟩ := h
    cases hm
  | cons m ms ih =>
    by_cases hms : Assigned ms name
    · obtain ⟨value, hlast⟩ := ih hms
      exact ⟨value, lastAssigns_cons.mpr (.inr hlast)⟩
    · obtain ⟨token, value, hassigns⟩ := (assigned_cons.mp h).resolve_right hms
      exact ⟨value, lastAssigns_cons.mpr (.inl ⟨⟨token, hassigns⟩, hms⟩)⟩

theorem LastAssigns.assigned {ms : List Moment} {name : String} {value : Value}
    (h : LastAssigns ms name value) : Assigned ms name := by
  obtain ⟨before, m, after, token, rfl, hassigns, -⟩ := h
  exact ⟨m, List.mem_append_right before List.mem_cons_self, token, value, hassigns⟩

/-! ### What one statement does to one name -/

namespace Moment

theorem Assigns.find?_next {m : Moment} {name token : String} {value : Value}
    (h : m.Assigns name token value) : m.next.find? name = some ⟨name, value, value.kind⟩ := by
  rw [h.next_eq, Store.find?_put, if_pos rfl]

theorem find?_next {m : Moment} {name : String} (h : ¬ ∃ token value, m.Assigns name token value) :
    m.next.find? name = m.store.find? name := by
  cases m.ends with
  | failed _ hnext => rw [hnext]
  | answered _ _ hnext => rw [hnext]
  | @assigned other token value hassigns _ hnext =>
    have hne : name ≠ other := by
      rintro rfl
      exact h ⟨token, value, hassigns⟩
    rw [hnext, Store.find?_put, if_neg hne]

/-- A statement takes no name away. -/
theorem names_next {m : Moment} {name : String} (h : name ∈ m.store.names) : name ∈ m.next.names := by
  rw [← Store.find?_isSome_iff] at h ⊢
  by_cases hassigns : ∃ token value, m.Assigns name token value
  · obtain ⟨token, value, hassigns⟩ := hassigns
    rw [hassigns.find?_next]
    rfl
  · rwa [find?_next hassigns]

end Moment

/-! ### What statements one after the other do to one name -/

namespace Store

theorem find?_of_not_assigned {s : Store} {texts : List String} {name : String}
    (h : ¬ Assigned (s.moments texts) name) : (s.afterStatements texts).find? name = s.find? name := by
  induction texts generalizing s with
  | nil => rfl
  | cons text texts ih =>
    rw [moments, assigned_cons, not_or] at h
    rw [afterStatements_cons, ih h.2, Moment.find?_next h.1]

theorem find?_of_lastAssigns {s : Store} {texts : List String} {name : String} {value : Value}
    (h : LastAssigns (s.moments texts) name value) :
    (s.afterStatements texts).find? name = some ⟨name, value, value.kind⟩ := by
  induction texts generalizing s with
  | nil =>
    obtain ⟨m, hm, -⟩ := h.assigned
    cases hm
  | cons text texts ih =>
    rw [moments, lastAssigns_cons] at h
    rw [afterStatements_cons]
    rcases h with ⟨⟨token, hassigns⟩, hrest⟩ | hrest
    · rw [find?_of_not_assigned hrest, hassigns.find?_next]
    · exact ih hrest

theorem names_afterStatements {s : Store} {name : String} (h : name ∈ s.names) (texts : List String) :
    name ∈ (s.afterStatements texts).names := by
  induction texts generalizing s with
  | nil => exact h
  | cons text texts ih => exact ih (Moment.names_next (m := ⟨text, s⟩) h)

/-- A name that is there when a statement is carried out is there at the end. -/
theorem names_of_mem_moments {s : Store} {texts : List String} {m : Moment} (hm : m ∈ s.moments texts)
    {name : String} (h : name ∈ m.store.names) : name ∈ (s.afterStatements texts).names := by
  induction texts generalizing s with
  | nil => cases hm
  | cons text texts ih =>
    rw [moments, List.mem_cons] at hm
    rcases hm with rfl | hm
    · exact names_afterStatements h (text :: texts)
    · exact ih hm

/-! ### The store of an interpreter -/

/-- The statements that calls of an interpreter carry out, with the stores they find. -/
def history (calls : List Call) : List Moment := empty.moments (calls.flatMap Call.statements)

theorem find?_after_eq_some_iff {calls : List Call} {name : String} {v : Variable} :
    (after calls).find? name = some v ↔
      LastAssigns (history calls) name v.value ∧ v = ⟨name, v.value, v.value.kind⟩ := by
  rw [after_eq]
  constructor
  · intro hv
    by_cases hassigned : Assigned (history calls) name
    · obtain ⟨value, hlast⟩ := hassigned.exists_last
      obtain rfl := Option.some.inj ((find?_of_lastAssigns hlast).symm.trans hv)
      exact ⟨hlast, rfl⟩
    · rw [find?_of_not_assigned hassigned] at hv
      cases hv
  · rintro ⟨hlast, hv⟩
    rw [find?_of_lastAssigns hlast, ← hv]

theorem mem_names_after_iff {calls : List Call} {name : String} :
    name ∈ (after calls).names ↔ Assigned (history calls) name := by
  rw [← find?_isSome_iff, Option.isSome_iff_exists]
  constructor
  · rintro ⟨v, hv⟩
    exact (find?_after_eq_some_iff.mp hv).1.assigned
  · intro h
    obtain ⟨value, hlast⟩ := h.exists_last
    exact ⟨⟨name, value, value.kind⟩, find?_after_eq_some_iff.mpr ⟨hlast, rfl⟩⟩

/-- What a name stands for is what was last assigned to it. -/
theorem value_after_iff {calls : List Call} {name : String} {value : Value} :
    ((after calls).find? name).map Variable.value = some value ↔
      LastAssigns (history calls) name value := by
  rw [Option.map_eq_some_iff]
  constructor
  · rintro ⟨v, hv, rfl⟩
    exact (find?_after_eq_some_iff.mp hv).1
  · intro hlast
    exact ⟨⟨name, value, value.kind⟩, find?_after_eq_some_iff.mpr ⟨hlast, rfl⟩, rfl⟩

/-- There are as many variables as names that were ever set. -/
theorem size_after (calls : List Call) :
    (after calls).size = {name | Assigned (history calls) name}.ncard := by
  have hnames : {name | Assigned (history calls) name} =
      ((after calls).names.toFinset : Set String) := by
    ext name
    simp [mem_names_after_iff]
  have hnodup := (valid_after calls).nodup_names
  rw [hnames, Set.ncard_coe_finset, List.toFinset_card_of_nodup hnodup]
  exact (List.length_map _).symm

/-- The names with their values, in the order of the names. -/
def bindings (s : Store) : List (String × Value) := s.entries.map fun e => (e.1, e.2.value)

theorem map_fst_bindings (s : Store) : s.bindings.map Prod.fst = s.names := by
  rw [bindings, List.map_map]
  rfl

theorem Valid.mem_bindings_iff {s : Store} (h : s.Valid) {name : String} {value : Value} :
    (name, value) ∈ s.bindings ↔ (s.find? name).map Variable.value = some value := by
  rw [bindings, List.mem_map, Option.map_eq_some_iff]
  constructor
  · rintro ⟨⟨other, v⟩, hmem, heq⟩
    cases heq
    exact ⟨v, h.mem_entries_iff.mp hmem, rfl⟩
  · rintro ⟨v, hv, rfl⟩
    exact ⟨(name, v), h.mem_entries_iff.mpr hv, rfl⟩

/-- The text of a valid store has a line for each name with its value. -/
theorem Valid.toText_eq {s : Store} (h : s.Valid) :
    s.toText = "\n".intercalate (s.bindings.map fun b => b.1 ++ " = " ++ b.2.toText) := by
  rw [toText, bindings, List.map_map]
  congr 1
  refine List.map_congr_left fun e he => ?_
  have hname := (h.standsAt he).name_eq
  rw [Function.comp_apply, ← hname]
  rfl

/-- **The last assignment counts.** Whatever an interpreter has been asked to do, a name
stands for a value if and only if some statement set the name to a token and succeeded, and
the value is what the token stood for when the last such statement was carried out. A name
that is there once is there for good; there are as many variables as names that were ever
set; and the text of the store has a line for each of them, in increasing order. -/
theorem after_eq_lastAssigns (calls : List Call) :
    (∀ (name : String) (value : Value),
      ((after calls).find? name).map Variable.value = some value ↔
        LastAssigns (history calls) name value) ∧
    (∀ m ∈ history calls, ∀ name ∈ m.store.names, name ∈ (after calls).names) ∧
    (∀ (more : List Call), ∀ name ∈ (after calls).names, name ∈ (after (calls ++ more)).names) ∧
    (after calls).size = {name | Assigned (history calls) name}.ncard ∧
    ∃ bindings : List (String × Value),
      (bindings.map Prod.fst).Pairwise (· < ·) ∧
      (∀ name value, (name, value) ∈ bindings ↔ LastAssigns (history calls) name value) ∧
      (after calls).toText =
        "\n".intercalate (bindings.map fun b => b.1 ++ " = " ++ b.2.toText) := by
  have hvalid := valid_after calls
  refine ⟨fun name value => value_after_iff, ?_, ?_, size_after calls, (after calls).bindings,
    ?_, fun name value => hvalid.mem_bindings_iff.trans value_after_iff, hvalid.toText_eq⟩
  · intro m hm name hname
    rw [after_eq]
    exact names_of_mem_moments hm hname
  · intro more name hname
    rw [after_eq, List.flatMap_append, afterStatements_append, ← after_eq]
    exact names_afterStatements hname _
  · rw [map_fst_bindings]
    exact hvalid.increasing

/-- A later change of the variable that a token names changes nothing: the second variable keeps
what the first one was. -/
theorem after_eq_lastAssigns_snapshot :
    (after [.execute "set a X; set b a", .executeStatement "set a 5"]).toText = "a = 5\nb = X" ∧
      LastAssigns (history [.execute "set a X; set b a", .executeStatement "set a 5"]) "b"
        (.numeral ⟨10, by decide, by decide⟩) :=
  ⟨by cbv, ((after_eq_lastAssigns _).1 "b" _).mp (by cbv)⟩

end Store

end Roman
