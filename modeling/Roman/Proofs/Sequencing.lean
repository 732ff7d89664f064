import Roman.Proofs.Splitting
import Roman.Script.Execution

/-!
# One line after another

A run is made of runs of single statements, each on the store that the one before it
leaves, so all that counts for a text is the list of its statements (`Run.inOrder_append`,
`Run.inOrder_ofLine`). Two lines with a separator between them have the statements of both,
and a script has those of one long line; therefore the runs are the same
(`Run.ofLine_sequence`).
-/

namespace Roman.Run

variable (run : String → Store → Run)

/-- The runs of two lists of texts, one list after the other. -/
theorem inOrder_append (texts more : List String) (s : Store) :
    inOrder run (texts ++ more) s =
      ⟨(inOrder run texts s).execution.append (inOrder run more (inOrder run texts s).store).execution,
        (inOrder run more (inOrder run texts s).store).store,
        (inOrder run texts s).records ++ (inOrder run more (inOrder run texts s).store).records⟩ := by
  induction texts generalizing s with
  | nil => rfl
  | cons text texts ih =>
    rw [List.cons_append, inOrder, ih]
    simp only [inOrder, Execution.append, List.append_assoc]

/-- Lines are run in order by running all their statements in order. -/
theorem inOrder_ofLine (texts : List String) (s : Store) :
    inOrder ofLine texts s = inOrder ofStatement (texts.flatMap statements) s := by
  induction texts generalizing s with
  | nil => rfl
  | cons line texts ih =>
    rw [List.flatMap_cons, inOrder_append, inOrder, ih]
    rfl

/-- **Where lines end makes no difference.** Whatever the store, two lines with a
separator between them give what the first line gives and then what the second one gives on
the store that the first leaves: the same values, the same failures, the same store and the
same records. And a script gives what the single line gives in which a separator stands for
each line feed. -/
theorem ofLine_sequence :
    (∀ (line next : String) (s : Store),
      ofLine (line ++ ";" ++ next) s =
        { execution :=
            { results :=
                (ofLine line s).execution.results ++
                  (ofLine next (ofLine line s).store).execution.results
              failures :=
                (ofLine line s).execution.failures ++
                  (ofLine next (ofLine line s).store).execution.failures }
          store := (ofLine next (ofLine line s).store).store
          records := (ofLine line s).records ++ (ofLine next (ofLine line s).store).records }) ∧
    ∀ source : String,
      ofScript source = ofLine (source.map fun c => if c = '\n' then ';' else c) .empty := by
  constructor
  · intro line next s
    rw [ofLine, statements_append, inOrder_append]
    rfl
  · intro source
    rw [ofScript, inOrder_ofLine, ofLine, statements_map]

example : ofScript "set a X;\r\n\r\n ; display a\r" = ofLine "set a X;\r;\r; ; display a\r" .empty := by
  cbv

end Roman.Run
