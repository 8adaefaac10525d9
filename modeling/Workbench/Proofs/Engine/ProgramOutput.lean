import Workbench.Proofs.Compiler.Outcome
import Workbench.Proofs.Engine.Launches
import Workbench.Proofs.Engine.Probe
import Workbench.Proofs.OutputLog

/-!
# What becomes of the output of a program

What a program wrote to its two streams is kept in its execution, however it ended. The log has what
it wrote to its error stream, but what it wrote to its output only if it ended well.

* `Ending.output`, `Ending.errors` : what was caught of the two streams;
* `executionTexts x` : what the log says about an execution after the heading of its program;
* `ShowsStreams ending x shown` : the lines that are shown of a program which ended so;
* `output_run` : what a run that executes a program writes to the log from there on;
* `program_output_of_run` : which streams are among it.
-/

namespace Workbench

namespace Machine.Ending

/-- What was caught of what a process wrote to its output. -/
def output : Ending → String
  | .refused _ _ => ""
  | .timedOut output _ => Compiler.textOf output
  | .exited _ output _ => output
  | .failed _ => ""

/-- What was caught of what a process wrote to its error stream. -/
def errors : Ending → String
  | .refused _ _ => ""
  | .timedOut _ errors => Compiler.textOf errors
  | .exited _ _ errors => errors
  | .failed _ => ""

end Machine.Ending

/-- An execution keeps all that was caught. -/
theorem Compiler.streams_executionOf {s : Settings.Store} {words : List Text.CodePoints}
    {ending : Machine.Ending} {seconds : Float} {x : Execution}
    (h : executionOf s words ending seconds = .ok x) :
    x.output = ending.output ∧ x.errors = ending.errors := by
  cases runsTo_of_executionOf h with
  | timedOut hshown => exact ⟨rfl, rfl⟩
  | refused => exact ⟨rfl, rfl⟩
  | exited => exact ⟨rfl, rfl⟩

namespace Engine

open Workbench.Action (Ensures)
open Machine (Ending)

/-! ## What is said about an execution -/

/-- What the log says about an execution, after the heading of its program. -/
def executionTexts (x : Execution) : List String :=
  (if x.failed then failureLines x else successLines x) ++
    ["\n" ++ rule, "⏱️  Execution time: " ++ showSeconds x.seconds ++ "s"]

/-- What the log says about a failure has nothing of the output of the program. -/
theorem executionTexts_of_failed {x : Execution} (h : x.failed = true) (output : String) :
    executionTexts { x with output } = executionTexts x := by
  have hfailed : ({ x with output } : Execution).failed = true := h
  unfold executionTexts
  rw [if_pos h, if_pos hfailed]
  rfl

theorem errors_mem_executionTexts {x : Execution} (h : x.errors ≠ "") :
    x.errors ∈ executionTexts x := by
  unfold executionTexts failureLines successLines
  split <;> simp [h]

/-- The output of a program that ended well is the first that is said. -/
theorem executionTexts_of_output {x : Execution} (hfailed : x.failed = false)
    (houtput : x.output ≠ "") : ∃ texts, executionTexts x = x.output :: texts := by
  unfold executionTexts successLines
  rw [hfailed, if_neg Bool.false_ne_true, if_neg houtput]
  exact ⟨_, rfl⟩

/-- The lines that are shown of a program which ended so and came to an execution. -/
structure ShowsStreams (ending : Ending) (x : Execution) (shown : OutputLog) : Prop where
  output_kept : x.output = ending.output
  errors_kept : x.errors = ending.errors
  errors : ending.errors ≠ "" → Text.splitLines ending.errors <:+: shown
  output : ending.IsSuccess → ending.output ≠ "" → Text.splitLines ending.output <+: shown
  /-- A program that did not end well is shown as if it had written nothing to its output. -/
  silenced : ending.IsFailure → shown = OutputLog.linesOf (executionTexts { x with output := "" })

theorem showsStreams_of_executionOf {s : Settings.Store} {words : List Text.CodePoints} {ending : Ending}
    {seconds : Float} {x : Execution} (h : Compiler.executionOf s words ending seconds = .ok x) :
    ShowsStreams ending x (OutputLog.linesOf (executionTexts x)) := by
  obtain ⟨houtput, herrors⟩ := Compiler.streams_executionOf h
  refine ⟨houtput, herrors, ?_, ?_, ?_⟩
  · rw [← herrors]
    exact fun hne => OutputLog.splitLines_isInfix_linesOf (errors_mem_executionTexts hne)
  · rw [← houtput, ← Compiler.failed_executionOf h]
    intro hfailed hne
    obtain ⟨texts, htexts⟩ := executionTexts_of_output hfailed hne
    rw [htexts]
    exact List.prefix_append _ (OutputLog.linesOf texts)
  · have htold : ∀ e, ending ≠ .failed e := Compiler.told_of_executionOf h
    rw [Ending.isFailure_iff htold, ← Compiler.failed_executionOf h]
    intro hfailed
    rw [executionTexts_of_failed (by simpa using hfailed) ""]

/-! ## The log after a run -/

/-- The log of the session is as it was. -/
def SameLog (e e' : Engine) : Prop := e'.session.output = e.session.output

theorem sameLog_trans {e₁ e₂ e₃ : Engine} (h : SameLog e₁ e₂) (h' : SameLog e₂ e₃) :
    SameLog e₁ e₃ := h'.trans h

theorem sameLog_note (text : String) : Ensures SameLog (note text) := fun _ => rfl

/-- What is said about an execution is in the log, also where the log file cannot be written. -/
theorem output_reportExecution (program : Path) (x : Execution) (e : Engine) :
    (reportExecution program x e).2.session.output =
      e.session.output ++ OutputLog.linesOf (executionTexts x) := by
  unfold reportExecution executionTexts
  rw [sayAll_bind, setStatus, change_bind, sayAll_bind]
  have hrest : Ensures SameLog
      (note ("Ran " ++ program.text ++ " -> " ++ showExitCode x.exitCode) >>= fun _ => publish) :=
    (sameLog_note _).bind sameLog_trans fun _ _ => rfl
  refine (hrest _).trans ?_
  rw [linesOf_append, ← List.append_assoc]
  rfl

section Execute
variable {source : String} {program : Path} {e : Engine} {t : Setup}

/-- The engine when the program has come to its end. -/
def executed (e : Engine) (program : Path) (x : Execution) (t : Setup) : Engine :=
  let headed := e.logged (programHeading program)
  { headed with setup := t, session := { headed.session with lastExecution := some x } }

theorem execute_of_ok {x : Execution}
    (h : Compiler.execute program (Path.ofText source).parent.text e.setup = (.ok x, t)) :
    (execute source program e).2 = (reportExecution program x (e.executed program x t)).2 := by
  have hsetup : onSetup (Compiler.execute program (Path.ofText source).parent.text)
      (e.logged (programHeading program)) =
        (.ok x, { e.logged (programHeading program) with setup := t }) :=
    onSetup_eq_ok.2 ⟨t, h, rfl⟩
  unfold execute
  rw [sayAll_bind, Action.bind_eq_of_ok hsetup, change_bind, Action.state_bind_pure]
  rfl

theorem execute_of_error {failure : Failure}
    (h : Compiler.execute program (Path.ofText source).parent.text e.setup = (.error failure, t)) :
    execute source program e =
      (.error failure, { e.logged (programHeading program) with setup := t }) := by
  have hsetup : onSetup (Compiler.execute program (Path.ofText source).parent.text)
      (e.logged (programHeading program)) =
        (.error failure, { e.logged (programHeading program) with setup := t }) := by
    unfold onSetup
    rw [Action.on_apply]
    have hsame : (e.logged (programHeading program)).setup = e.setup := rfl
    rw [hsame, h]
  unfold execute
  rw [sayAll_bind]
  exact Action.bind_eq_of_error hsetup

end Execute

/-- The engine after the program was looked for. -/
def lookedUp (e : Engine) (l : Artifact.Lookup) : Engine :=
  { e with session := { e.session with lastLookup := some l } }

/-- A run whose compilation succeeded and whose program was found executes it. -/
theorem run_of_finds {e compiled : Engine} {program : Path}
    (hcompile : compile e = (.ok true, compiled)) (hfinds : Finds compiled program) :
    ∃ l, run e = (execute compiled.session.path program >>= fun x => pure (some x))
      (compiled.lookedUp l) := by
  obtain ⟨l, hl, hpath⟩ := hfinds
  refine ⟨l, ?_⟩
  unfold run
  rw [Action.bind_eq_of_ok hcompile, if_pos rfl, Action.bind_eq_of_ok (Action.get_apply compiled)]
  unfold runCompiled
  rw [Action.bind_eq_of_ok (Action.get_apply compiled), locateWith_eq_search, hl]
  dsimp only
  rw [change_bind, hpath]
  rfl

/-- The log and the execution after a run that executes a program. -/
theorem output_run {e compiled : Engine} {program : Path} {x : Execution} {t : Setup}
    (hcompile : compile e = (.ok true, compiled)) (hfinds : Finds compiled program)
    (hexecute : Compiler.execute program (Path.ofText compiled.session.path).parent.text
      compiled.setup = (.ok x, t)) :
    (run e).2.session.output = compiled.session.output ++
        OutputLog.linesOf (programHeading program) ++ OutputLog.linesOf (executionTexts x) ∧
      (run e).2.session.lastExecution = some x := by
  obtain ⟨l, hrun⟩ := run_of_finds hcompile hfinds
  have hstate : (run e).2 =
      (reportExecution program x ((compiled.lookedUp l).executed program x t)).2 := by
    rw [hrun, Action.state_bind_pure]
    exact execute_of_ok hexecute
  rw [hstate]
  exact ⟨output_reportExecution program x _, (still_reportExecution program x _).execution⟩

/-- An execution without a result leaves nothing but the heading of its program. -/
theorem output_run_of_error {e compiled : Engine} {program : Path} {failure : Failure} {t : Setup}
    (hcompile : compile e = (.ok true, compiled)) (hfinds : Finds compiled program)
    (hexecute : Compiler.execute program (Path.ofText compiled.session.path).parent.text
      compiled.setup = (.error failure, t)) :
    (run e).1 = .error failure ∧ (run e).2.session.output = compiled.session.output ++
        OutputLog.linesOf (programHeading program) := by
  obtain ⟨l, hrun⟩ := run_of_finds hcompile hfinds
  have hfails : execute compiled.session.path program (compiled.lookedUp l) =
      (.error failure, { (compiled.lookedUp l).logged (programHeading program) with setup := t }) :=
    execute_of_error hexecute
  rw [hrun, Action.bind_eq_of_error hfails]
  exact ⟨rfl, rfl⟩

/-- After the heading of the program, a run that executes it shows what the program wrote to its error
stream, however it ended. What it wrote to its output is shown if the program exited with code zero.
If not, it is kept in the execution, but the run shows the lines of a program without output. If the
launch comes to no result, then the run fails so, and nothing stands after the heading. -/
theorem program_output_of_run {e compiled : Engine} {program : Path}
    (hcompile : compile e = (.ok true, compiled)) (hfinds : Finds compiled program) :
    let ending := compiled.setup.machine.nextEnding
    let before := compiled.session.output ++ OutputLog.linesOf (programHeading program)
    let l := compiled.programLaunch program
    ((∀ failure, ¬ Compiler.Fails compiled.setup l failure) →
      ∃ x shown, (run e).2.session.output = before ++ shown ∧
        (run e).2.session.lastExecution = some x ∧ ShowsStreams ending x shown) ∧
    (∀ failure, Compiler.Fails compiled.setup l failure →
      (run e).1 = .error failure ∧ (run e).2.session.output = before) := by
  intro ending before l
  have hdirectory : (Path.ofText compiled.session.path).parent.text ≠ "" :=
    Path.text_ne_empty (Path.isName_parent (Path.isName_ofText compiled.session.path))
  let directory := (Path.ofText compiled.session.path).parent.text
  let r := Compiler.execute program directory compiled.setup
  have hl : Compiler.launchFrom compiled.setup.settings program directory = l := by
    rw [Compiler.launchFrom, if_neg hdirectory]
    rfl
  constructor
  · intro hfails
    cases hr : r.1 with
    | ok x =>
      have hexecute : Compiler.execute program directory compiled.setup = (.ok x, r.2) :=
        Prod.ext hr rfl
      obtain ⟨houtput, hexecution⟩ := output_run hcompile hfinds hexecute
      obtain ⟨-, hx⟩ := Compiler.execute_eq_ok hdirectory hexecute
      exact ⟨x, _, houtput, hexecution, showsStreams_of_executionOf hx⟩
    | error failure =>
      exact absurd (hl ▸ Compiler.execute_eq_error_iff.1 hr) (hfails failure)
  · intro failure hfails
    have hr : r.1 = .error failure := Compiler.execute_eq_error_iff.2 (hl.symm ▸ hfails)
    exact output_run_of_error hcompile hfinds (Prod.ext hr rfl)

/-! ## Programs that write something -/

/-- The engine whose compiler makes a program, which then ends so. -/
def endingEngine (ending : Ending) : Engine :=
  { buildingEngine with
    setup :=
      { buildingEngine.setup with
        machine :=
          { buildingEngine.setup.machine with
            outcomes := [{ files := [(["w", "a.exe"], .bytes [])] }, { ending }] } } }

theorem finds_of_evaluation {e : Engine} {program : Path}
    (h : e.search.toOption.bind Artifact.Lookup.path = some program) : Finds e program := by
  obtain ⟨l, hl, hpath⟩ := Option.bind_eq_some_iff.1 h
  exact ⟨l, Action.eq_ok_of_toOption hl, hpath⟩

/-- A program that ends well is shown with all that it wrote. -/
theorem shown_of_endingEngine :
    ∃ compiled program shown,
      compile (endingEngine (.exited 0 "hello" "careful")) = (.ok true, compiled) ∧
      Finds compiled program ∧
      (run (endingEngine (.exited 0 "hello" "careful"))).2.session.output =
        compiled.session.output ++ OutputLog.linesOf (programHeading program) ++ shown ∧
      Text.splitLines "hello" <+: shown ∧ Text.splitLines "careful" <:+: shown := by
  have hcompile : compile (endingEngine (.exited 0 "hello" "careful")) =
      (.ok true, (compile (endingEngine (.exited 0 "hello" "careful"))).2) :=
    Action.eq_of_toOption (by decide +kernel)
  have hfinds : Finds (compile (endingEngine (.exited 0 "hello" "careful"))).2
      (Path.ofText "/w/a.exe") := finds_of_evaluation (by decide +kernel)
  have hending : (compile (endingEngine (.exited 0 "hello" "careful"))).2.setup.machine.nextEnding =
      .exited 0 "hello" "careful" := by decide +kernel
  have hobjection : (compile (endingEngine (.exited 0 "hello" "careful"))).2.setup.machine.objection?
      ((compile (endingEngine (.exited 0 "hello" "careful"))).2.programLaunch
        (Path.ofText "/w/a.exe")) = none := by decide +kernel
  obtain ⟨hshown, -⟩ := program_output_of_run hcompile hfinds
  obtain ⟨x, shown, houtput, -, hstreams⟩ :=
    hshown (Compiler.not_fails_of_exited hobjection hending)
  rw [hending] at hstreams
  exact ⟨_, _, shown, hcompile, hfinds, houtput, hstreams.output ⟨_, _, rfl⟩ (by decide),
    hstreams.errors (by decide)⟩

theorem newline_not_mem_toDigits (n : Nat) : '\n' ∉ Nat.toDigits 10 n := fun h =>
  absurd (Nat.isDigit_of_mem_toDigits (by decide) (by decide) h) (by decide)

/-- A time is shown on one line. -/
theorem newline_not_mem_showSeconds (seconds : Float) : '\n' ∉ (showSeconds seconds).toList := by
  have hhundredths : ∀ n, '\n' ∉ (Number.hundredths n).toList := by
    intro n
    simp [Number.hundredths, Number.paddedDigits, newline_not_mem_toDigits, Nat.toList_repr]
  unfold showSeconds Number.fixed2
  dsimp only
  split
  · decide
  · split <;> decide
  · split <;> simp [hhundredths]

theorem splitLines_timeLine (seconds : Float) :
    Text.splitLines ("⏱️  Execution time: " ++ showSeconds seconds ++ "s") =
      ["⏱️  Execution time: " ++ showSeconds seconds ++ "s"] := by
  refine Text.splitLines_of_not_mem ?_
  rw [String.toList_append, String.toList_append, List.mem_append, List.mem_append]
  rintro ((h | h) | h)
  · exact absurd h (by decide)
  · exact newline_not_mem_showSeconds seconds h
  · exact absurd h (by decide)

/-- What a program wrote that then exited with the code 3 is in its execution, but not in the log. -/
theorem lost_of_endingEngine :
    ∃ compiled program x shown,
      compile (endingEngine (.exited 3 "lost" "")) = (.ok true, compiled) ∧
      Finds compiled program ∧
      (run (endingEngine (.exited 3 "lost" ""))).2.session.output =
        compiled.session.output ++ OutputLog.linesOf (programHeading program) ++ shown ∧
      (run (endingEngine (.exited 3 "lost" ""))).2.session.lastExecution = some x ∧
      x.output = "lost" ∧ "lost" ∉ shown := by
  have hcompile : compile (endingEngine (.exited 3 "lost" "")) =
      (.ok true, (compile (endingEngine (.exited 3 "lost" ""))).2) :=
    Action.eq_of_toOption (by decide +kernel)
  have hfinds : Finds (compile (endingEngine (.exited 3 "lost" ""))).2 (Path.ofText "/w/a.exe") :=
    finds_of_evaluation (by decide +kernel)
  have hending : (compile (endingEngine (.exited 3 "lost" ""))).2.setup.machine.nextEnding =
      .exited 3 "lost" "" := by decide +kernel
  have hobjection : (compile (endingEngine (.exited 3 "lost" ""))).2.setup.machine.objection?
      (Compiler.launchFrom (compile (endingEngine (.exited 3 "lost" ""))).2.setup.settings
        (Path.ofText "/w/a.exe") (Path.ofText
          (compile (endingEngine (.exited 3 "lost" ""))).2.session.path).parent.text) = none := by
    decide +kernel
  have hexecute := Compiler.execute_apply (Machine.lets_of_unobjected hobjection)
  rw [hending] at hexecute
  obtain ⟨houtput, hexecution⟩ := output_run hcompile hfinds hexecute
  refine ⟨_, _, _, _, hcompile, hfinds, houtput, hexecution, rfl, ?_⟩
  have hfixed : "lost" ∉ OutputLog.linesOf ["\n❌ Runtime Error!\n",
      "Program exited with code " ++ showExitCode (some 3), "\n" ++ rule] := by decide +kernel
  have htexts : ∀ seconds, executionTexts { exitCode := some 3, output := "lost", seconds } =
      ["\n❌ Runtime Error!\n", "Program exited with code " ++ showExitCode (some 3), "\n" ++ rule] ++
        ["⏱️  Execution time: " ++ showSeconds seconds ++ "s"] := fun _ => rfl
  rw [htexts, linesOf_append, OutputLog.linesOf_singleton, splitLines_timeLine, List.mem_append,
    List.mem_singleton]
  rintro (h | h)
  · exact hfixed h
  · exact absurd (congrArg (fun s => s.toList.head?) h) (by simp)

end Engine

end Workbench
