import Workbench.Compiler
import Workbench.Proofs.Action
import Workbench.Proofs.Machine.Launch

/-!
# What the compiler and its programs launch

* `Compiler.compilerLaunch`, `Compiler.programLaunch` : the launches of a compilation and of a
  program;
* `Compiler.compile_eq_ok` : a compilation that comes to a result launches nothing if there is no
  compiler, and else the compiler once (`Compiler.Gives`);
* `Compiler.execute_eq_ok` : an execution that comes to a result launches the program once.

What a launch amounts to is said once, with one case for each ending (`Compiler.AmountsTo`,
`Compiler.RunsTo`). A compilation succeeds if and only if the compiler was launched and exited with
code zero (`Compiler.succeeded_compilationOf`), and an execution has failed unless the program exited
so (`Compiler.failed_executionOf`). There is no result only if the launch fails of itself, the output
is no text, or it took too long and the time cannot be written (`Compiler.Silent`).
-/

namespace Workbench

/-- The setup after a process was launched on it. -/
def Setup.afterLaunch (s : Setup) (l : Machine.Launch) : Setup :=
  { s with machine := s.machine.started l }

namespace Compiler

open Machine (Captured Ending Fault Launch)
open Text (CodePoints)

/-- The launch of the compiler with some words: from the directory of the source, within the
configured time. -/
def compilerLaunch (s : Settings.Store) (source : String) (words : List CodePoints) : Launch where
  command := words
  directory := (Path.ofText source).parent.text
  timeout := timeout s

/-- The launch of a program from a directory: the program has no arguments. -/
def programLaunch (s : Settings.Store) (program : Path) (directory : String) : Launch where
  command := [program.text]
  directory
  timeout := timeout s

/-- A process that took too long has a text if the time has one. -/
theorem timeoutText_eq_ok {what text : String} {time : Settings.Value} :
    timeoutText what time = .ok text ↔
      ∃ shown, time.display? = some shown ∧ text = what ++ " timed out after " ++ shown ++ "s" := by
  unfold timeoutText
  cases time.display? <;> simp [eq_comm]

theorem launch_apply {command : List CodePoints} {directory : String} {s : Setup}
    (h : ∀ e, ¬ s.machine.Balks { command, directory, timeout := timeout s.settings } e) :
    launch command directory s =
      let l : Launch := { command, directory, timeout := timeout s.settings }
      (.ok (s.machine.nextEnding, (s.afterLaunch l).machine.clock - s.machine.clock),
        s.afterLaunch l) := by
  unfold launch
  rw [Machine.launch_of_lets h]
  rfl

theorem launch_eq_error {command : List CodePoints} {directory : String} {s : Setup} {e : Failure}
    (h : s.machine.Balks { command, directory, timeout := timeout s.settings } e) :
    (launch command directory s).1 = .error e := by
  unfold launch
  dsimp only
  rw [Machine.launch_of_balks h]
  rfl

/-! ## Compilations -/

section Found
variable {source : String} {s : Setup} {compiler : Path} {words : List CodePoints}

/-- With a compiler that is there, a compilation is a launch and what it amounts to. -/
theorem compile_eq_bind (hcompiler : resolve s = .ok compiler)
    (hfound : s.machine.pathExists compiler.text = .ok true)
    (hwords : command s source = .ok words) :
    compile source s = (launch words (Path.ofText source).parent.text >>= fun r =>
      Action.ask fun s => compilationOf s.settings words r.1 r.2) s := by
  have hask : Action.ask resolve s = (.ok compiler, s) := Prod.ext hcompiler rfl
  have hexists : Action.ask (fun s : Setup => s.machine.pathExists compiler.text) s =
      (.ok true, s) := Prod.ext hfound rfl
  have hcommand : Action.ask (fun s => command s source) s = (.ok words, s) := Prod.ext hwords rfl
  unfold compile
  rw [Action.bind_eq_of_ok hask, Action.bind_eq_of_ok hexists, if_pos rfl,
    Action.bind_eq_of_ok hcommand]

theorem compile_of_found (hcompiler : resolve s = .ok compiler)
    (hfound : s.machine.pathExists compiler.text = .ok true)
    (hwords : command s source = .ok words)
    (hlets : ∀ e, ¬ s.machine.Balks (compilerLaunch s.settings source words) e) :
    compile source s =
      (compilationOf s.settings words s.machine.nextEnding
        ((s.afterLaunch (compilerLaunch s.settings source words)).machine.clock - s.machine.clock),
      s.afterLaunch (compilerLaunch s.settings source words)) := by
  rw [compile_eq_bind hcompiler hfound hwords, Action.bind_eq_of_ok (launch_apply hlets)]
  rfl

/-- A launch that fails of itself is no compilation. -/
theorem compile_of_balks (hcompiler : resolve s = .ok compiler)
    (hfound : s.machine.pathExists compiler.text = .ok true)
    (hwords : command s source = .ok words) {e : Failure}
    (h : s.machine.Balks (compilerLaunch s.settings source words) e) :
    (compile source s).1 = .error e := by
  rw [compile_eq_bind hcompiler hfound hwords,
    Action.bind_eq_of_error (Prod.ext (launch_eq_error h) rfl)]

/-- Whatever comes of it, the launch is all that a compilation does to its setup. -/
theorem setup_compile (hcompiler : resolve s = .ok compiler)
    (hfound : s.machine.pathExists compiler.text = .ok true)
    (hwords : command s source = .ok words) :
    (compile source s).2 =
      { s with machine := (s.machine.launch (compilerLaunch s.settings source words)).2 } := by
  rw [compile_eq_bind hcompiler hfound hwords, Action.bind_apply]
  cases hlaunch : launch words (Path.ofText source).parent.text s with
  | mk r t =>
    have ht : { s with machine := (s.machine.launch (compilerLaunch s.settings source words)).2 } =
        t := congrArg Prod.snd hlaunch
    rw [ht]
    cases r <;> rfl

end Found

/-- The ways in which a compilation can come to a result. -/
inductive Gives (s : Setup) (source : String) : Compilation → Setup → Prop
  | missing {compiler : Path} (hcompiler : resolve s = .ok compiler)
      (hfound : s.machine.pathExists compiler.text = .ok false) :
      Gives s source { succeeded := false, error := missingText compiler } s
  | launched {compiler : Path} {words : List CodePoints} {seconds : Float} {c : Compilation}
      (hcompiler : resolve s = .ok compiler)
      (hfound : s.machine.pathExists compiler.text = .ok true)
      (hwords : command s source = .ok words)
      (hlets : ∀ e, ¬ s.machine.Balks (compilerLaunch s.settings source words) e)
      (hc : compilationOf s.settings words s.machine.nextEnding seconds = .ok c)
      (hseconds : seconds = (s.afterLaunch (compilerLaunch s.settings source words)).machine.clock -
        s.machine.clock) :
      Gives s source c (s.afterLaunch (compilerLaunch s.settings source words))

theorem compile_eq_ok {source : String} {s t : Setup} {c : Compilation} :
    compile source s = (.ok c, t) ↔ Gives s source c t := by
  constructor
  · intro h
    have hresult := h
    unfold compile at h
    obtain ⟨compiler, _, hask, h⟩ := Action.bind_eq_ok.1 h
    obtain ⟨hcompiler, rfl⟩ := Prod.mk.inj hask
    obtain ⟨found, _, hask, h⟩ := Action.bind_eq_ok.1 h
    obtain ⟨hfound, rfl⟩ := Prod.mk.inj hask
    cases found with
    | false =>
      obtain ⟨hc, rfl⟩ := Prod.mk.inj h
      obtain rfl := Except.ok.inj hc
      exact .missing hcompiler hfound
    | true =>
      rw [if_pos rfl] at h
      obtain ⟨words, _, hask, -⟩ := Action.bind_eq_ok.1 h
      obtain ⟨hwords, rfl⟩ := Prod.mk.inj hask
      have hlets : ∀ e, ¬ s.machine.Balks (compilerLaunch s.settings source words) e := by
        intro e he
        have hfails := compile_of_balks hcompiler hfound hwords he
        rw [hresult] at hfails
        exact nomatch hfails
      rw [compile_of_found hcompiler hfound hwords hlets] at hresult
      obtain ⟨hc, rfl⟩ := Prod.mk.inj hresult
      exact .launched hcompiler hfound hwords hlets hc rfl
  · intro h
    cases h with
    | missing hcompiler hfound =>
      refine Action.bind_eq_ok.2 ⟨_, s, Prod.ext hcompiler rfl, ?_⟩
      exact Action.bind_eq_ok.2 ⟨false, s, Prod.ext hfound rfl, rfl⟩
    | launched hcompiler hfound hwords hlets hc hseconds =>
      subst hseconds
      exact (compile_of_found hcompiler hfound hwords hlets).trans (Prod.ext hc rfl)

/-- The compilations that launches amount to: one for each way in which a process can end. -/
inductive AmountsTo (s : Settings.Store) (words : List CodePoints) (seconds : Float) :
    Ending → Compilation → Prop
  | timedOut {output errors : Captured} {shown : String} (h : (timeout s).display? = some shown) :
      AmountsTo s words seconds (.timedOut output errors)
        { succeeded := false, seconds, command := words
          error := "Compiler" ++ " timed out after " ++ shown ++ "s" }
  | refused {fault : Fault} {path : Option String} :
      AmountsTo s words seconds (.refused fault path)
        { succeeded := false, seconds, command := words
          error := "Could not start compiler: " ++ (refusal words fault path).message }
  | succeeded {output errors : String} :
      AmountsTo s words seconds (.exited 0 output errors)
        { succeeded := true, output, errors, seconds, command := words }
  | failed {code : Int} {output errors : String} (h : code ≠ 0) :
      AmountsTo s words seconds (.exited code output errors)
        { succeeded := false, output, errors, seconds, command := words
          error := "Command failed with exit code " ++ Number.text code }

theorem amountsTo_of_compilationOf {s : Settings.Store} {words : List CodePoints} {ending : Ending}
    {seconds : Float} {c : Compilation} (h : compilationOf s words ending seconds = .ok c) :
    AmountsTo s words seconds ending c := by
  unfold compilationOf at h
  cases ending with
  | timedOut output errors =>
    cases htext : timeoutText "Compiler" (timeout s) with
    | error failure => simp [htext, Except.map] at h
    | ok text =>
      obtain ⟨shown, hshown, rfl⟩ := timeoutText_eq_ok.1 htext
      rw [htext] at h
      obtain rfl := Except.ok.inj h
      exact .timedOut hshown
  | refused fault path =>
    obtain rfl := Except.ok.inj h
    exact .refused
  | exited code output errors =>
    dsimp only at h
    split at h
    · next hcode =>
      subst hcode
      obtain rfl := Except.ok.inj h
      exact .succeeded
    · next hcode =>
      obtain rfl := Except.ok.inj h
      exact .failed hcode
  | failed e => exact nomatch h

/-- What a launch amounts to says whether the process exited with code zero. -/
theorem succeeded_compilationOf {s : Settings.Store} {words : List CodePoints} {ending : Ending}
    {seconds : Float} {c : Compilation} (h : compilationOf s words ending seconds = .ok c) :
    c.command = words ∧ (c.succeeded = true ↔ ending.IsSuccess) := by
  cases amountsTo_of_compilationOf h with
  | timedOut hshown => exact ⟨rfl, by simp [Ending.IsSuccess]⟩
  | refused => exact ⟨rfl, by simp [Ending.IsSuccess]⟩
  | succeeded => exact ⟨rfl, by simp [Ending.IsSuccess]⟩
  | failed hcode => exact ⟨rfl, by simp [Ending.IsSuccess, hcode]⟩

/-- What a compiler wrote that came to its end is kept. -/
theorem wrote_compilationOf {s : Settings.Store} {words : List CodePoints} {code : Int}
    {output errors : String} {seconds : Float} {c : Compilation}
    (h : compilationOf s words (.exited code output errors) seconds = .ok c) :
    c.output = output ∧ c.errors = errors ∧ (c.succeeded = true ↔ code = 0) := by
  cases amountsTo_of_compilationOf h with
  | succeeded => exact ⟨rfl, rfl, iff_of_true rfl rfl⟩
  | failed hcode => exact ⟨rfl, rfl, iff_of_false Bool.false_ne_true hcode⟩

theorem Gives.wrote {s t : Setup} {source : String} {c : Compilation} {code : Int}
    {output errors : String} (h : Gives s source c t)
    (hlaunched : t.machine.launches ≠ s.machine.launches)
    (hending : s.machine.nextEnding = .exited code output errors) :
    c.output = output ∧ c.errors = errors ∧ (c.succeeded = true ↔ code = 0) := by
  cases h with
  | missing hcompiler hfound => exact absurd rfl hlaunched
  | launched hcompiler hfound hwords hlets hc hseconds =>
    rw [hending] at hc
    exact wrote_compilationOf hc

/-- An ending amounts to no result: what the process wrote is no text, or it took too long and the
time has no text. -/
inductive Silent (s : Settings.Store) : Ending → Failure → Prop
  | failed {e : Failure} : Silent s (.failed e) e
  | timedOut {output errors : Captured} (h : (timeout s).display? = none) :
      Silent s (.timedOut output errors) .numberTooLong

section
variable {α : Type} {s : Settings.Store} {failure : Failure}

/-- What is made of the text about a process that took too long is missing where that text is. -/
theorem map_timeoutText_eq_error_iff {what : String} {f : String → α} {output errors : Captured} :
    (timeoutText what (timeout s)).map f = .error failure ↔
      Silent s (.timedOut output errors) failure := by
  unfold timeoutText
  cases hshown : (timeout s).display? with
  | some shown =>
    refine iff_of_false (by simp [Except.map]) fun h => ?_
    cases h with
    | timedOut hnone => exact nomatch hshown.symm.trans hnone
  | none =>
    constructor
    · intro h
      obtain rfl := Except.error.inj h
      exact .timedOut hshown
    · intro h
      cases h with
      | timedOut => rfl

theorem error_eq_iff_silent {e : Failure} :
    (.error e : Except Failure α) = .error failure ↔ Silent s (.failed e) failure := by
  constructor
  · intro h
    obtain rfl := Except.error.inj h
    exact .failed
  · intro h
    cases h with
    | failed => rfl

end

theorem compilationOf_eq_error_iff {s : Settings.Store} {words : List CodePoints} {ending : Ending}
    {seconds : Float} {failure : Failure} :
    compilationOf s words ending seconds = .error failure ↔ Silent s ending failure := by
  cases ending with
  | timedOut output errors => exact map_timeoutText_eq_error_iff
  | refused fault path => exact iff_of_false nofun nofun
  | exited code output errors =>
    refine iff_of_false (fun h => ?_) nofun
    unfold compilationOf at h
    dsimp only at h
    split at h <;> exact nomatch h
  | failed e => exact error_eq_iff_silent

/-- An ending amounts to a compilation unless it amounts to no result. -/
theorem exists_compilationOf {s : Settings.Store} {words : List CodePoints} {ending : Ending}
    {seconds : Float} : (∃ c, compilationOf s words ending seconds = .ok c) ↔
      ∀ failure, ¬ Silent s ending failure := by
  constructor
  · rintro ⟨c, hc⟩ failure hsilent
    exact nomatch hc.symm.trans (compilationOf_eq_error_iff.2 hsilent)
  · intro h
    cases hc : compilationOf s words ending seconds with
    | ok c => exact ⟨c, rfl⟩
    | error failure => exact absurd (compilationOf_eq_error_iff.1 hc) (h failure)

/-! ## Executions -/

/-- The executions that launches amount to. What was caught of a program is kept, also where it was
stopped. -/
inductive RunsTo (s : Settings.Store) (words : List CodePoints) (seconds : Float) :
    Ending → Execution → Prop
  | timedOut {output errors : Captured} {shown : String} (h : (timeout s).display? = some shown) :
      RunsTo s words seconds (.timedOut output errors)
        { exitCode := none, output := textOf output, errors := textOf errors, seconds
          error := "Program" ++ " timed out after " ++ shown ++ "s" }
  | refused {fault : Fault} {path : Option String} :
      RunsTo s words seconds (.refused fault path)
        { exitCode := none, seconds
          error := "Could not start program: " ++ (refusal words fault path).message }
  | exited {code : Int} {output errors : String} :
      RunsTo s words seconds (.exited code output errors)
        { exitCode := some code, output, errors, seconds }

theorem runsTo_of_executionOf {s : Settings.Store} {words : List CodePoints} {ending : Ending}
    {seconds : Float} {x : Execution} (h : executionOf s words ending seconds = .ok x) :
    RunsTo s words seconds ending x := by
  unfold executionOf at h
  cases ending with
  | timedOut output errors =>
    cases htext : timeoutText "Program" (timeout s) with
    | error failure => simp [htext, Except.map] at h
    | ok text =>
      obtain ⟨shown, hshown, rfl⟩ := timeoutText_eq_ok.1 htext
      rw [htext] at h
      obtain rfl := Except.ok.inj h
      exact .timedOut hshown
  | refused fault path =>
    obtain rfl := Except.ok.inj h
    exact .refused
  | exited code output errors =>
    obtain rfl := Except.ok.inj h
    exact .exited
  | failed e => exact nomatch h

/-- An execution fails to have a result where a compilation does. -/
theorem executionOf_eq_error_iff {s : Settings.Store} {words : List CodePoints} {ending : Ending}
    {seconds : Float} {failure : Failure} :
    executionOf s words ending seconds = .error failure ↔ Silent s ending failure := by
  cases ending with
  | timedOut output errors => exact map_timeoutText_eq_error_iff
  | refused fault path => exact iff_of_false nofun nofun
  | exited code output errors => exact iff_of_false nofun nofun
  | failed e => exact error_eq_iff_silent

/-- What a launch amounts to says whether the program exited with code zero. -/
theorem failed_executionOf {s : Settings.Store} {words : List CodePoints} {ending : Ending}
    {seconds : Float} {x : Execution} (h : executionOf s words ending seconds = .ok x) :
    x.failed = false ↔ ending.IsSuccess := by
  cases runsTo_of_executionOf h with
  | timedOut hshown => simp [Execution.failed, Ending.IsSuccess]
  | refused => simp [Execution.failed, Ending.IsSuccess]
  | exited => simp [Execution.failed, Ending.IsSuccess]

/-- The launch of a program from a directory, or from its own one if that has no name. -/
def launchFrom (s : Settings.Store) (program : Path) (directory : String) : Launch :=
  programLaunch s program (if directory = "" then program.parent.text else directory)

theorem execute_apply {program : Path} {directory : String} {s : Setup}
    (hlets : ∀ e, ¬ s.machine.Balks (launchFrom s.settings program directory) e) :
    execute program directory s =
      (executionOf s.settings [program.text] s.machine.nextEnding
        ((s.afterLaunch (launchFrom s.settings program directory)).machine.clock -
          s.machine.clock),
      s.afterLaunch (launchFrom s.settings program directory)) := by
  unfold execute
  rw [Action.bind_eq_of_ok (launch_apply hlets)]
  rfl

theorem execute_of_balks {program : Path} {directory : String} {s : Setup} {e : Failure}
    (h : s.machine.Balks (launchFrom s.settings program directory) e) :
    (execute program directory s).1 = .error e := by
  unfold execute
  rw [Action.bind_eq_of_error (Prod.ext (launch_eq_error h) rfl)]

/-- Whatever comes of it, the launch is all that an execution does to its setup. -/
theorem setup_execute (program : Path) (directory : String) (s : Setup) :
    (execute program directory s).2 =
      { s with machine := (s.machine.launch (launchFrom s.settings program directory)).2 } := by
  unfold execute
  rw [Action.bind_apply]
  cases hlaunch : launch [Text.CodePoints.ofString program.text]
      (if directory = "" then program.parent.text else directory) s with
  | mk r t =>
    have ht : { s with machine := (s.machine.launch (launchFrom s.settings program directory)).2 } =
        t := congrArg Prod.snd hlaunch
    rw [ht]
    cases r <;> rfl

/-- Only a launch that does not fail of itself can come to a result. -/
theorem lets_of_execute {program : Path} {directory : String} {s t : Setup} {x : Execution}
    (h : execute program directory s = (.ok x, t)) :
    ∀ e, ¬ s.machine.Balks (launchFrom s.settings program directory) e := by
  intro e he
  have hfails := execute_of_balks he
  rw [h] at hfails
  exact nomatch hfails

theorem execute_eq_ok {program : Path} {directory : String} (hdirectory : directory ≠ "")
    {s t : Setup} {x : Execution} (h : execute program directory s = (.ok x, t)) :
    t = s.afterLaunch (programLaunch s.settings program directory) ∧
      executionOf s.settings [program.text] s.machine.nextEnding
        (t.machine.clock - s.machine.clock) = .ok x := by
  have hlaunch : launchFrom s.settings program directory =
      programLaunch s.settings program directory := by rw [launchFrom, if_neg hdirectory]
  rw [execute_apply (lets_of_execute h), hlaunch] at h
  obtain ⟨hx, rfl⟩ := Prod.mk.inj h
  exact ⟨rfl, hx⟩

end Compiler

end Workbench
