import Roman.CommandLine.Response
import Roman.Proofs.Answers
import Roman.Proofs.Sequencing

/-!
# Front ends

A text is run as an argument, as the contents of a file, or as standard input. The first two take it
as a whole; standard input is taken line by line, with a prompt before each line. The lines are the
same (`linesOfChars_of_nextLine?`), and each finds the store that the lines before it leave, so the runs
of the lines are the run of the text, cut at the lines (`Run.ofScript_eq`). What is written differs in
one thing only: standard output holds prompts between the values (`Response.converse_eq`). Since a
value is written on one line, the values are read off what is written, and the prompts counted
(`readTranscript_transcript`). Since the message of a failure is written on one line as well, the
failures are read off standard error (`splitOn_unlines`).
-/

namespace Roman

/-! ### Lines one by one -/

/-- What is left at the end of an input is a line, if it is not empty. -/
theorem linesOfChars_of_not_mem {cs : List Char} (h : '\n' ∉ cs) (hne : cs ≠ []) :
    linesOfChars cs = [cs] := by
  simp [linesOfChars, List.splitOn_eq_singleton h, hne]

/-- A line feed ends a line. -/
theorem linesOfChars_append_cons {cs : List Char} (h : '\n' ∉ cs) (rest : List Char) :
    linesOfChars (cs ++ '\n' :: rest) = dropReturn cs :: linesOfChars rest := by
  have hpieces := List.splitOn_ne_nil '\n' rest
  rw [linesOfChars, List.splitOn_append_cons_self_of_not_mem h, List.dropLast_cons_of_ne_nil hpieces,
    List.getLastD_cons, List.map_cons, List.cons_append, linesOfChars]
  simp [List.getLastD_eq_getLast?, List.getLast?_eq_some_getLast hpieces]

theorem nextLine?_eq_none_iff {cs : List Char} : nextLine? cs = none ↔ cs = [] := by
  rw [nextLine?]
  split
  next hnil => exact iff_of_true rfl hnil
  next hne =>
    refine iff_of_false ?_ hne
    split <;> exact nofun

/-- The next line is what is left of the input, or it is ended by a line feed. -/
theorem nextLine?_eq_some {cs line rest : List Char} (h : nextLine? cs = some (line, rest)) :
    ('\n' ∉ cs ∧ cs ≠ [] ∧ line = cs ∧ rest = []) ∨
      ∃ piece, '\n' ∉ piece ∧ cs = piece ++ '\n' :: rest ∧ line = dropReturn piece := by
  rw [nextLine?] at h
  split at h
  next => cases h
  next hne =>
    have hfree : '\n' ∉ cs.takeWhile (· ≠ '\n') := fun hmem => by
      simpa using List.mem_takeWhile_imp hmem
    have hcut := List.takeWhile_append_dropWhile (p := (· ≠ '\n')) (l := cs)
    dsimp only at h
    split at h
    next hdrop =>
      cases h
      rw [hdrop, List.append_nil] at hcut
      exact .inl ⟨hcut ▸ hfree, hne, hcut, rfl⟩
    next c after hdrop =>
      cases h
      obtain rfl : c = '\n' := by
        have hhead := List.head?_dropWhile_not (· ≠ '\n') cs
        rw [hdrop] at hhead
        simpa using hhead
      rw [hdrop] at hcut
      exact .inr ⟨_, hfree, hcut.symm, rfl⟩

/-- The lines of an input are its next line and those of what is left. -/
theorem linesOfChars_of_nextLine? {cs line rest : List Char} (h : nextLine? cs = some (line, rest)) :
    linesOfChars cs = line :: linesOfChars rest := by
  rcases nextLine?_eq_some h with ⟨hfree, hne, rfl, rfl⟩ | ⟨piece, hfree, rfl, rfl⟩
  · rw [linesOfChars_of_not_mem hfree hne]
    rfl
  · exact linesOfChars_append_cons hfree rest

/-! ### Runs one by one -/

namespace Run

/-- The runs of several texts, each on the store that the one before it leaves. -/
def each (run : String → Store → Run) : List String → Store → List Run
  | [], _ => []
  | text :: texts, s => run text s :: each run texts (run text s).store

theorem length_each (run : String → Store → Run) (texts : List String) (s : Store) :
    (each run texts s).length = texts.length := by
  induction texts generalizing s with
  | nil => rfl
  | cons text texts ih => rw [each, List.length_cons, List.length_cons, ih]

/-- What several texts give in order is what they give one by one, all taken together. -/
theorem inOrder_eq (run : String → Store → Run) (texts : List String) (s : Store) :
    inOrder run texts s =
      { execution :=
          { results := (each run texts s).flatMap fun r => r.execution.results
            failures := (each run texts s).flatMap fun r => r.execution.failures }
        store := ((each run texts s).map Run.store).getLastD s
        records := (each run texts s).flatMap Run.records } := by
  induction texts generalizing s with
  | nil => rfl
  | cons text texts ih =>
    rw [inOrder, ih, each, List.map_cons, List.getLastD_cons]
    rfl

/-- The runs of the lines of a script make up its run. -/
theorem ofScript_eq (source : String) :
    ofScript source =
      let runs := each .ofLine (lines source) .empty
      { execution :=
          { results := runs.flatMap fun run => run.execution.results
            failures := runs.flatMap fun run => run.execution.failures }
        store := (runs.map Run.store).getLastD .empty
        records := runs.flatMap Run.records } :=
  inOrder_eq .ofLine (lines source) .empty

end Run

/-! ### What is written -/

theorem unlines_cons (text : String) (texts : List String) :
    unlines (text :: texts) = text ++ "\n" ++ unlines texts := by
  rw [unlines, List.map_cons, String.join_cons, unlines]

theorem unlines_append (texts more : List String) :
    unlines (texts ++ more) = unlines texts ++ unlines more := by
  rw [unlines, List.map_append, String.join_append, unlines, unlines]

/-- Nothing is written only if there is nothing to write. -/
theorem unlines_eq_empty_iff {texts : List String} : unlines texts = "" ↔ texts = [] := by
  cases texts with
  | nil => exact ⟨fun _ => rfl, fun _ => rfl⟩
  | cons text texts =>
    rw [unlines_cons]
    simp

/-- Texts that are written on one line each are read back. -/
theorem splitOn_unlines {texts : List String} (h : ∀ text ∈ texts, OneLine text) :
    (unlines texts).toList.splitOn '\n' = texts.map String.toList ++ [[]] := by
  induction texts with
  | nil => rfl
  | cons text texts ih =>
    have htexts : (unlines (text :: texts)).toList = text.toList ++ '\n' :: (unlines texts).toList := by
      rw [unlines_cons]
      simp
    rw [htexts, List.splitOn_append_cons_self_of_not_mem (h text List.mem_cons_self),
      ih fun text hmem => h text (List.mem_cons_of_mem _ hmem)]
    rfl

/-- A script fails exactly if it writes errors. -/
theorem Response.ofScript_eq (source : String) :
    ofScript source =
      { exit :=
          if unlines ((Run.ofScript source).execution.failures.map Failure.message) = "" then 0 else 1
        output := unlines ((Run.ofScript source).execution.results.map Value.toText)
        errors := unlines ((Run.ofScript source).execution.failures.map Failure.message) } := by
  rw [ofScript]
  simp [Execution.isSuccess, unlines_eq_empty_iff]

/-- The standard output of runs: before each a prompt, and then its values; at the end a prompt on a
line that ends there. -/
def transcript : List Run → String
  | [] => prompt ++ "\n"
  | run :: runs =>
    prompt ++ unlines (run.execution.results.map fun value => "Result: " ++ value.toText) ++
      transcript runs

/-- What is written while an input is read is what the runs of its lines write. -/
theorem Response.converse_eq (input : List Char) (s : Store) :
    converse input s =
      let runs := Run.each .ofLine ((linesOfChars input).map String.ofList) s
      { exit := 0
        output := transcript runs
        errors := unlines ((runs.flatMap fun r => r.execution.failures).map Failure.message) } := by
  fun_induction converse input s with
  | case1 input s h =>
    rw [nextLine?_eq_none_iff.mp h]
    rfl
  | case2 input s line rest h exchange after ih =>
    -- the rest is read with the store that the run of the line leaves
    have hexchange : exchange.store = (Run.ofLine (String.ofList line) s).store := rfl
    rw [linesOfChars_of_nextLine? h, List.map_cons, Run.each, ← hexchange]
    simp only [after, ih, transcript, List.flatMap_cons, List.map_append, unlines_append]
    rfl

/-! ### Reading what is written -/

/-- What can be read off the standard output of runs. -/
structure Transcript where
  /-- How many prompts there are. -/
  prompts : Nat
  /-- The texts of the values, in order. -/
  results : List String
  deriving DecidableEq

/-- How many prompts are in front of a line, and the line after them. -/
def afterPrompts : List Char → Nat × List Char
  | '>' :: ' ' :: line => ((afterPrompts line).1 + 1, (afterPrompts line).2)
  | line => (0, line)

/-- The value that a line shows after its prompts, if it shows one. -/
def resultText? (line : List Char) : Option String :=
  ((afterPrompts line).2.dropPrefix? "Result: ".toList).map String.ofList

/-- Reads lines. -/
def Transcript.ofLines (rows : List (List Char)) : Transcript :=
  ⟨(rows.map fun row => (afterPrompts row).1).sum, rows.filterMap resultText?⟩

/-- Reads standard output. -/
def readTranscript (output : String) : Transcript := .ofLines (output.toList.splitOn '\n')

theorem readTranscript_prompt (output : String) :
    readTranscript (prompt ++ output) =
      { readTranscript output with prompts := (readTranscript output).prompts + 1 } := by
  have htext : (prompt ++ output).toList = '>' :: ' ' :: output.toList := by
    rw [String.toList_append]
    rfl
  rw [readTranscript, readTranscript, htext, List.splitOn_cons_eq_if_modifyHead,
    List.splitOn_cons_eq_if_modifyHead, if_neg (by decide), if_neg (by decide)]
  obtain ⟨row, rows, hrows⟩ := List.exists_cons_of_ne_nil (List.splitOn_ne_nil '\n' output.toList)
  have hresult : resultText? ('>' :: ' ' :: row) = resultText? row := rfl
  rw [hrows, List.modifyHead_cons, List.modifyHead_cons, Transcript.ofLines, Transcript.ofLines,
    List.filterMap_cons, List.filterMap_cons, hresult]
  simp only [List.map_cons, List.sum_cons, afterPrompts]
  congr 1
  omega

theorem readTranscript_result {text : String} (h : OneLine text) (output : String) :
    readTranscript ("Result: " ++ text ++ "\n" ++ output) =
      { readTranscript output with results := text :: (readTranscript output).results } := by
  have htext : ("Result: " ++ text ++ "\n" ++ output).toList =
      ("Result: ".toList ++ text.toList) ++ '\n' :: output.toList := by simp
  have hfree : '\n' ∉ "Result: ".toList ++ text.toList := by
    rw [List.mem_append, not_or]
    exact ⟨by decide, h⟩
  have hresult : resultText? ("Result: ".toList ++ text.toList) = some text := by
    have hrow : (afterPrompts ("Result: ".toList ++ text.toList)).2 = "Result: ".toList ++ text.toList :=
      rfl
    rw [resultText?, hrow, List.dropPrefix?_append_of_beq _ BEq.rfl, Option.map_some,
      String.ofList_toList]
  have hprompts : (afterPrompts ("Result: ".toList ++ text.toList)).1 = 0 := rfl
  rw [readTranscript, readTranscript, htext, List.splitOn_append_cons_self_of_not_mem hfree,
    Transcript.ofLines, Transcript.ofLines, List.filterMap_cons, hresult, List.map_cons,
    List.sum_cons, hprompts, Nat.zero_add]

theorem readTranscript_results {texts : List String} (h : ∀ text ∈ texts, OneLine text)
    (output : String) :
    readTranscript (unlines (texts.map ("Result: " ++ ·)) ++ output) =
      { readTranscript output with results := texts ++ (readTranscript output).results } := by
  induction texts with
  | nil =>
    rw [List.map_nil, List.nil_append]
    exact congrArg readTranscript (String.empty_append)
  | cons text texts ih =>
    rw [List.map_cons, unlines_cons, String.append_assoc,
      readTranscript_result (h text List.mem_cons_self),
      ih fun text htext => h text (List.mem_cons_of_mem _ htext)]
    rfl

/-- Of runs whose values are written on one line each, the prompts and the values are read. -/
theorem readTranscript_transcript {runs : List Run}
    (h : ∀ run ∈ runs, ∀ value ∈ run.execution.results, OneLine value.toText) :
    readTranscript (transcript runs) =
      { prompts := runs.length + 1
        results := (runs.flatMap fun run => run.execution.results).map Value.toText } := by
  induction runs with
  | nil => rfl
  | cons run runs ih =>
    have hrun : ∀ text ∈ run.execution.results.map Value.toText, OneLine text := by
      intro text htext
      obtain ⟨value, hvalue, rfl⟩ := List.mem_map.mp htext
      exact h run List.mem_cons_self value hvalue
    have hvalues : (run.execution.results.map fun value => "Result: " ++ value.toText) =
        (run.execution.results.map Value.toText).map ("Result: " ++ ·) := by
      rw [List.map_map]
      rfl
    rw [transcript, String.append_assoc, readTranscript_prompt, hvalues, readTranscript_results hrun,
      ih fun run hmem => h run (List.mem_cons_of_mem _ hmem), List.flatMap_cons, List.map_append,
      List.length_cons]

/-! ### Values and failures of scripts -/

/-- Statements that are carried out in order from a valid store each find a valid store. -/
theorem Store.Valid.of_mem_moments {texts : List String} {s : Store} (hs : s.Valid) {m : Moment}
    (hm : m ∈ s.moments texts) : m.store.Valid := by
  induction texts generalizing s with
  | nil => cases hm
  | cons text texts ih =>
    rcases List.mem_cons.mp hm with rfl | hrest
    · exact hs
    · exact ih (kept_executeStatement (fun h _ hbound => h.put hbound) hs text) hrest

namespace Run

/-- The values and the failures of a script, in order, are those of the statements of its lines. -/
theorem execution_ofScript (source : String) :
    (ofScript source).execution =
      let moments := Store.empty.moments ((lines source).flatMap statements)
      ⟨moments.filterMap Moment.value?, moments.filterMap Moment.failure?⟩ := by
  rw [ofScript, inOrder_ofLine, execution_inOrder]

/-- What a script gives is written on one line each. -/
theorem oneLine_ofScript {source : String} {value : Value}
    (h : value ∈ (ofScript source).execution.results) : OneLine value.toText := by
  rw [execution_ofScript] at h
  obtain ⟨m, hm, hvalue⟩ := List.mem_filterMap.mp h
  have houtcome := Moment.value?_eq_some_iff.mp hvalue
  exact (isAnswer_of_executeStatement (Store.valid_empty.of_mem_moments hm) houtcome).oneLine

/-- The message of what fails in a script is written on one line. -/
theorem oneLine_message_ofScript {source : String} {f : Failure}
    (h : f ∈ (ofScript source).execution.failures) : OneLine f.message := by
  rw [execution_ofScript] at h
  obtain ⟨m, hm, hf⟩ := List.mem_filterMap.mp h
  obtain ⟨hstatement, houtcome⟩ := Moment.failure?_eq_some_iff.mp hf
  have hmem := Store.statement_mem_of_mem_moments hm
  rw [hstatement] at hmem
  have hquoted : OneLine ("Error in command '" ++ f.statement) :=
    .append (by decide) (lineFeed_not_mem_of_mem_lines hmem)
  have hsurfaces := surfaces_of_executeStatement (Store.valid_empty.of_mem_moments hm) houtcome
  exact .append (hquoted.append (by decide)) hsurfaces.oneLine_message

end Run

/-! ### The three front ends -/

/-- A form without options takes an argument that looks like none as a plain one. -/
theorem Form.read?_plain {form : Form} (hoptions : form.options = [])
    (hflag : ∀ flag ∈ form.flag, looksLikeOption flag = true) {arg : String}
    (harg : looksLikeOption arg = false) (rest : List String) :
    form.read? (arg :: rest) = (form.read? rest).map (.addPlain arg) := by
  have hends : arg ≠ "--" := by
    rintro rfl
    exact absurd harg (by decide)
  have hflags : arg ∉ form.flag := fun hmem => by
    rw [hflag arg hmem] at harg
    cases harg
  have hassignment : form.assignment? arg = none := by
    rw [assignment?]
    split
    next => rfl
    next => rw [hoptions, if_neg List.not_mem_nil]
  rw [read?.eq_def]
  dsimp only
  rw [if_neg hends, if_neg hflags, hoptions, if_neg List.not_mem_nil, hassignment, harg]
  rfl

/-- A script is asked for by its text, and by the path of a file that holds it. -/
theorem Request.parse?_run (contents : String) :
    parse? ["run", "--", contents] = some (.run false contents) ∧
      parse? ["run", "--file", "--", contents] = some (.run true contents) ∧
      (looksLikeOption contents = false →
        parse? ["run", "--file", contents] = some (.run true contents)) := by
  refine ⟨rfl, rfl, fun hcontents => ?_⟩
  have hplain : runForm.read? [contents] = some (.ofPlain [contents]) := by
    rw [Form.read?_plain rfl (by decide) hcontents]
    rfl
  have hread : runForm.read? ["--file", contents] = some (Arguments.ofPlain [contents]).addFlag := by
    rw [Form.read?, if_neg (by decide), if_pos (by decide), hplain]
    rfl
  rw [parse?, hread]
  rfl

theorem respond_run (s : Surroundings) (source : String) :
    respond s ["run", "--", source] = .ofScript source := by
  rw [respond, (Request.parse?_run source).1]
  rfl

theorem respond_run_file {s : Surroundings} {path source : String} (h : s.readFile path = some source) :
    respond s ["run", "--file", "--", path] = .ofScript source ∧
      (looksLikeOption path = false → respond s ["run", "--file", path] = .ofScript source) := by
  obtain ⟨-, hends, hplain⟩ := Request.parse?_run path
  have hfile : Request.respond s (.run true path) = .ofScript source := by rw [Request.respond, h]
  refine ⟨?_, fun hpath => ?_⟩
  · rw [respond, hends]
    exact hfile
  · rw [respond, hplain hpath]
    exact hfile

/-- Standard input is answered with what the runs of its lines write, and its failures are those of
the script that it is. -/
theorem respond_repl (s : Surroundings) :
    respond s ["repl"] =
      { exit := 0
        output := transcript (Run.each .ofLine (lines s.input) .empty)
        errors := unlines ((Run.ofScript s.input).execution.failures.map Failure.message) } := by
  have hparse : respond s ["repl"] = .converse s.input.toList .empty := rfl
  rw [hparse, Response.converse_eq, Run.ofScript_eq]
  rfl

/-- **The front ends agree.** A text is run alike as an argument and as the contents of a file: its
values go to standard output, each on a line of its own, and its failures to standard error, each on a
line of its own that cites the statement and says why it fails, and the exit code is 0 if nothing is
written there, otherwise 1. As standard input it is run line by line, and the runs of the lines make up
the run of the text: standard error is the same, the values read off standard output are the same, with
one prompt for each line and one more, and the exit code is 0. -/
theorem frontEnds_agree (text : String) :
    let script := Run.ofScript text
    let runs := Run.each .ofLine (lines text) .empty
    let messages := script.execution.failures.map fun f =>
      "Error in command '" ++ f.statement ++ "': " ++ f.error.message
    let errors := unlines messages
    let whole : Response :=
      { exit := if errors = "" then 0 else 1
        output := unlines (script.execution.results.map Value.toText)
        errors := errors }
    (∀ value ∈ script.execution.results, OneLine value.toText) ∧
    errors.toList.splitOn '\n' = messages.map String.toList ++ [[]] ∧
    (∀ s, respond s ["run", "--", text] = whole) ∧
    (∀ s path, s.readFile path = some text →
      respond s ["run", "--file", "--", path] = whole ∧
      (looksLikeOption path = false → respond s ["run", "--file", path] = whole)) ∧
    (runs.length = (lines text).length ∧
      script =
        { execution :=
            { results := runs.flatMap fun run => run.execution.results
              failures := runs.flatMap fun run => run.execution.failures }
          store := (runs.map Run.store).getLastD .empty
          records := runs.flatMap Run.records }) ∧
    ∀ s, s.input = text →
      respond s ["repl"] = { exit := 0, output := transcript runs, errors := errors } ∧
      readTranscript (respond s ["repl"]).output =
        { prompts := (lines text).length + 1
          results := script.execution.results.map Value.toText } := by
  intro script runs messages errors whole
  have hscript : Response.ofScript text = whole := Response.ofScript_eq text
  have hrepl : ∀ s : Surroundings, s.input = text →
      respond s ["repl"] = { exit := 0, output := transcript runs, errors := errors } := by
    rintro s rfl
    exact respond_repl s
  have hmessages : ∀ message ∈ messages, OneLine message := by
    intro message hmem
    obtain ⟨f, hf, rfl⟩ := List.mem_map.mp hmem
    exact Run.oneLine_message_ofScript hf
  have hresults : script.execution.results = runs.flatMap fun run => run.execution.results :=
    congrArg (fun run => run.execution.results) (Run.ofScript_eq text)
  refine ⟨fun value => Run.oneLine_ofScript, splitOn_unlines hmessages, fun s => ?_,
    fun s path hpath => ?_, ⟨Run.length_each _ _ _, Run.ofScript_eq text⟩,
    fun s hinput => ⟨hrepl s hinput, ?_⟩⟩
  · rw [respond_run, hscript]
  · rw [← hscript]
    exact respond_run_file hpath
  · rw [hrepl s hinput, readTranscript_transcript, Run.length_each, hresults]
    intro run hrun value hvalue
    have hmem : value ∈ script.execution.results :=
      hresults ▸ List.mem_flatMap.mpr ⟨run, hrun, hvalue⟩
    exact Run.oneLine_ofScript hmem

/-- A script that fails in part, as an argument, in a file and as standard input. -/
theorem frontEnds_agree_failure :
    let text := "set a X\r\n\ndisplay a; a"
    let s : Surroundings := ⟨fun path => if path = "script" then some text else none, text, []⟩
    let errors := "Error in command 'a': Invalid command - must have at least 2 parts\n"
    s.readFile "script" = some text ∧ looksLikeOption "script" = false ∧ s.input = text ∧
      respond s ["run", "--", text] = ⟨1, "X\n", errors⟩ ∧
      respond s ["run", "--file", "script"] = ⟨1, "X\n", errors⟩ ∧
      respond s ["repl"] = ⟨0, "> > > Result: X\n> \n", errors⟩ ∧
      readTranscript (respond s ["repl"]).output = ⟨4, ["X"]⟩ := by
  intro text s errors
  obtain ⟨-, -, hargument, hfile, -, hinput⟩ := frontEnds_agree text
  obtain ⟨-, hplain⟩ := hfile s "script" rfl
  obtain ⟨hrepl, hread⟩ := hinput s rfl
  have hvalues : (Run.ofScript text).execution.results.map Value.toText = ["X"] := by cbv
  have hfailures : (Run.ofScript text).execution.failures = [⟨"a", .malformed .tooShort⟩] := by cbv
  have herrors : unlines ["Error in command '" ++ "a" ++ "': " ++
      StatementError.message (.malformed .tooShort)] = errors := by decide +kernel
  rw [hvalues, hfailures, List.map_singleton, herrors, if_neg (by decide)] at hargument hplain
  have houtput : transcript (Run.each .ofLine (lines text) .empty) = "> > > Result: X\n> \n" := by cbv
  have hlines : (lines text).length + 1 = 4 := by cbv
  rw [hfailures, List.map_singleton, herrors, houtput] at hrepl
  rw [hvalues, hlines] at hread
  exact ⟨rfl, by decide, rfl, hargument s, hplain (by decide), hrepl, hread⟩

end Roman
