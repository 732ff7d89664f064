import Roman.Proofs.Moments

/-!
# Statements that leave no trace

The only thing that a statement hands on to those after it is the store, and a statement
that fails, or is no assignment, leaves the store as it was. So such statements can be left
out: every other statement still finds the store that it found in the full run
(`Store.moments_without`), and ends in the same way (`Store.outcomes_without`).
-/

namespace Roman

/-- A list without what stands at the given positions. -/
def without {α : Type} : (Nat → Bool) → List α → List α
  | _, [] => []
  | deleted, a :: as =>
    if deleted 0 then without (fun i => deleted (i + 1)) as
    else a :: without (fun i => deleted (i + 1)) as

theorem map_without {α β : Type} (f : α → β) (deleted : Nat → Bool) (as : List α) :
    (without deleted as).map f = without deleted (as.map f) := by
  induction as generalizing deleted with
  | nil => rfl
  | cons a as ih =>
    rw [List.map_cons, without, without, ← ih]
    split <;> rfl

/-- Leaving out the positions of what has a property keeps what does not have it. -/
theorem without_eq_filter {α : Type} (p : α → Bool) (as : List α) :
    without (fun i => as[i]?.any p) as = as.filter fun a => !p a := by
  induction as with
  | nil => rfl
  | cons a as ih =>
    rw [without, List.filter_cons]
    simp only [List.getElem?_cons_zero, Option.any_some, List.getElem?_cons_succ, ih]
    cases p a <;> rfl

/-! ### Leaving out statements -/

namespace Store

/-- The statements that do not fail. -/
def survivors (s : Store) (texts : List String) : List String :=
  ((s.moments texts).filter fun m => !m.failed).map Moment.statement

/-- The assignments that succeed. -/
def assignments (s : Store) (texts : List String) : List Moment :=
  (s.moments texts).filter fun m => isAssignment m.statement && !m.failed

/-- Statements that fail or are no assignments can be left out of a run: the others find the
stores that they found before, and the same store is left at the end. -/
theorem moments_without (s : Store) (texts : List String) (deleted : Nat → Bool)
    (h : ∀ i m, (s.moments texts)[i]? = some m → deleted i = true →
      m.failed = true ∨ isAssignment m.statement = false) :
    s.moments (without deleted texts) = without deleted (s.moments texts) ∧
      s.afterStatements (without deleted texts) = s.afterStatements texts := by
  induction texts generalizing s deleted with
  | nil => exact ⟨rfl, rfl⟩
  | cons text texts ih =>
    obtain ⟨hmoments, hafter⟩ := ih (Moment.next ⟨text, s⟩) (fun i => deleted (i + 1))
      fun i m hm hdeleted => h (i + 1) m hm hdeleted
    rw [moments, without, without, afterStatements_cons]
    by_cases hdeleted : deleted 0 = true
    · have hnext : Moment.next ⟨text, s⟩ = s := Moment.next_of_inert (h 0 ⟨text, s⟩ rfl hdeleted)
      rw [if_pos hdeleted, if_pos hdeleted, hnext]
      rw [hnext] at hmoments hafter
      exact ⟨hmoments, hafter⟩
    · rw [if_neg hdeleted, if_neg hdeleted, moments, afterStatements_cons, hmoments, hafter]
      exact ⟨rfl, rfl⟩

/-- In particular those that fail. -/
theorem moments_survivors (s : Store) (texts : List String) :
    s.moments (s.survivors texts) = (s.moments texts).filter (fun m => !m.failed) ∧
      s.afterStatements (s.survivors texts) = s.afterStatements texts := by
  have h := s.moments_without texts (fun i => (s.moments texts)[i]?.any Moment.failed) ?_
  · have htexts : without (fun i => (s.moments texts)[i]?.any Moment.failed) texts =
        s.survivors texts := by
      rw [survivors, ← without_eq_filter, map_without, map_statement_moments]
    rwa [htexts, without_eq_filter] at h
  · intro i m hm hfailed
    rw [hm] at hfailed
    exact .inl hfailed

end Store

/-! ### What statements contribute to a line -/

namespace Moment

theorem value?_of_failed {m : Moment} (h : m.failed = true) : m.value? = none := by
  rw [value?]
  cases houtcome : m.outcome with
  | ok answer =>
    rw [not_failed_of_ok houtcome] at h
    cases h
  | error e => rfl

theorem failure?_eq_none {m : Moment} (h : m.failed = false) : m.failure? = none := by
  rw [failure?]
  cases houtcome : m.outcome with
  | ok answer => rfl
  | error e =>
    rw [failed_of_error houtcome] at h
    cases h

/-- The values of statements are those of the ones that do not fail. -/
theorem filterMap_value?_filter (ms : List Moment) :
    (ms.filter fun m => !m.failed).filterMap value? = ms.filterMap value? := by
  rw [List.filterMap_filter]
  refine List.filterMap_congr fun m _ => ?_
  split
  next => rfl
  next h =>
    have hfailed : m.failed = true := by simpa using h
    rw [value?_of_failed hfailed]

theorem filterMap_failure?_filter (ms : List Moment) :
    (ms.filter fun m => !m.failed).filterMap failure? = [] := by
  refine List.filterMap_eq_nil_iff.mpr fun m hm => failure?_eq_none ?_
  simpa using (List.mem_filter.mp hm).2

/-- Each statement has a value, or fails, or is an assignment that succeeds. -/
theorem length_eq (ms : List Moment) :
    (ms.filterMap value?).length + (ms.filterMap failure?).length +
      (ms.filter fun m => isAssignment m.statement && !m.failed).length = ms.length := by
  induction ms with
  | nil => rfl
  | cons m ms ih =>
    rw [List.filterMap_cons, List.filterMap_cons, List.filter_cons, List.length_cons, ← ih]
    cases m.ends with
    | failed houtcome _ =>
      simp only [value?, failure?, houtcome, failed_of_error houtcome, Bool.not_true, Bool.and_false,
        Bool.false_eq_true, if_false, List.length_cons]
      omega
    | answered hset houtcome _ =>
      simp only [value?, failure?, houtcome, hset, Bool.false_and, Bool.false_eq_true, if_false,
        List.length_cons]
      omega
    | assigned hassigns houtcome _ =>
      have hset : isAssignment m.statement = true := by rw [isAssignment, hassigns.parse_eq]; rfl
      simp only [value?, failure?, houtcome, hset, hassigns.not_failed, Bool.not_false,
        Bool.and_self, if_true, List.length_cons]
      omega

end Moment

/-- **What fails, or only answers, might as well not be there.** Whatever the store, and
whatever statements are carried out on it one after the other: leaving out any of those that
fail in the full run or are no assignments changes neither how the others end nor the store
that is left. So a line without its statements that fail has the same values in the same
order, no failure, and leaves the same store. And each statement of a line has a value, or
fails, or is an assignment that succeeds. -/
theorem Store.outcomes_without :
    (∀ (s : Store) (texts : List String) (deleted : Nat → Bool),
      (∀ i m, (s.moments texts)[i]? = some m → deleted i = true →
        m.failed = true ∨ isAssignment m.statement = false) →
      (s.moments (without deleted texts)).map Moment.outcome =
          without deleted ((s.moments texts).map Moment.outcome) ∧
        s.afterStatements (without deleted texts) = s.afterStatements texts) ∧
    (∀ (s : Store) (line : String),
      (∀ rest : String, statements rest = s.survivors (statements line) →
        (Run.ofLine rest s).execution = ⟨(Run.ofLine line s).execution.results, []⟩ ∧
          (Run.ofLine rest s).store = (Run.ofLine line s).store) ∧
      statements (";".intercalate (s.survivors (statements line))) =
        s.survivors (statements line) ∧
      (Run.ofLine line s).execution.results.length + (Run.ofLine line s).execution.failures.length +
          (s.assignments (statements line)).length =
        (line.toList.splitOn ';').countP fun piece => piece.any fun c => !isWhiteSpace c) := by
  refine ⟨fun s texts deleted h => ?_, fun s line => ⟨fun rest hrest => ?_, ?_, ?_⟩⟩
  · obtain ⟨hmoments, hafter⟩ := s.moments_without texts deleted h
    rw [hmoments, map_without]
    exact ⟨rfl, hafter⟩
  · obtain ⟨hmoments, hafter⟩ := s.moments_survivors (statements line)
    rw [← hrest] at hmoments hafter
    rw [Run.store_ofLine, Run.store_ofLine, Run.results_ofLine, Run.ofLine, Run.execution_inOrder,
      hmoments, Moment.filterMap_value?_filter, Moment.filterMap_failure?_filter]
    exact ⟨rfl, hafter⟩
  · refine statements_intercalate fun text htext => ?_
    obtain ⟨m, hm, rfl⟩ := List.mem_map.mp htext
    exact isStatement_of_mem (statement_mem_of_mem_moments (List.mem_of_mem_filter hm))
  · rw [Run.results_ofLine, Run.failures_ofLine, assignments, Moment.length_eq, length_moments,
      length_statements]

/-- Without a name that is refused and a sum, a variable is set and shown as before. -/
theorem Store.outcomes_without_refused :
    (empty.moments ["set a X", "display a"]).map Moment.outcome =
        without (fun i => i == 1 || i == 2)
          ((empty.moments ["set a X", "set X 5", "add a 1", "display a"]).map Moment.outcome) ∧
      empty.afterStatements ["set a X", "display a"] =
        empty.afterStatements ["set a X", "set X 5", "add a 1", "display a"] := by
  refine outcomes_without.1 empty ["set a X", "set X 5", "add a 1", "display a"]
    (fun i => i == 1 || i == 2) fun i m hm hdeleted => ?_
  rcases Bool.or_eq_true_iff.mp hdeleted with hi | hi
  · obtain rfl := beq_iff_eq.mp hi
    cases hm
    exact .inl (by cbv)
  · obtain rfl := beq_iff_eq.mp hi
    cases hm
    exact .inr (by cbv)

end Roman
