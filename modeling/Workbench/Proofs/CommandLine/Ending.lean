import Workbench.CommandLine.Run
import Workbench.Proofs.Diagnostic.Extract
import Workbench.Proofs.Engine.Markers
import Workbench.Proofs.Engine.Success
import Workbench.Proofs.Machine.Directories
import Workbench.Proofs.View.Report

/-!
# How a command line ends

A command line that names a file and a mode has one command carried out, and its exit code says
whether that succeeded.

* `read_of_name` : command lines that name a file and a mode;
* `Succeeds mode e e'` : what the command of a mode does when it succeeds (`perform_succeeds_iff`);
* `Tells good s` : the diagnostics that a command leaves, none if it succeeded;
* `Waits m m'` : no process was launched meanwhile, and the next ones will do the same;
* `engineFor m path` : the engine that is made for a source;
* `Reaches m path mode e good e'` : the command line comes to its command, which gives an answer;
* `ending_of_command` : the exit code and the report. There is none if the compiler wrote a column
  that cannot be written when it is counted from one, or a message that cannot be printed.
-/

namespace Workbench

open Number (digitBound)

/-! ## Before the command -/

/-- No process was launched, and the next ones will do what they were going to do. -/
structure Waits (m m' : Machine) : Prop where
  launches : m'.launches = m.launches
  outcomes : m'.outcomes = m.outcomes

theorem Waits.refl (m : Machine) : Waits m m := ⟨rfl, rfl⟩

theorem Waits.trans {m m' m'' : Machine} (h : Waits m m') (h' : Waits m' m'') : Waits m m'' :=
  ⟨h'.launches.trans h.launches, h'.outcomes.trans h.outcomes⟩

theorem Waits.nextEnding {m m' : Machine} (h : Waits m m') : m'.nextEnding = m.nextEnding := by
  unfold Machine.nextEnding
  rw [h.outcomes]

theorem waits_makeDirectories (p : Path) : Action.Ensures Waits (Machine.makeDirectories p) := by
  intro m
  rw [(Machine.addsDirectories_makeDirectories p m).disk_only]
  exact ⟨rfl, rfl⟩

theorem waits_load (directory : Path) : Action.Ensures Waits (Settings.Store.load directory) := by
  refine Action.Ensures.bind Waits.trans (waits_makeDirectories directory) fun _ => ?_
  refine Action.Ensures.bind Waits.trans (fun m => Waits.refl m) fun there => ?_
  cases there with
  | false => exact Waits.refl
  | true =>
    refine Action.Ensures.bind Waits.trans (fun m => Waits.refl m) fun read m => ?_
    cases read with
    | ok values => exact Waits.refl m
    | error reason => exact ⟨rfl, rfl⟩

theorem waits_greet (s : Setup) : Waits s.machine (Compiler.greet s).2.machine := by
  unfold Compiler.greet
  rw [Action.bind_eq_of_ok (Action.get_apply s)]
  cases Compiler.configured? s.settings with
  | error failure => exact Waits.refl s.machine
  | ok configured =>
    cases Compiler.present? s with
    | error failure => cases configured <;> exact Waits.refl s.machine
    | ok there =>
      cases configured <;> cases there <;> exact ⟨rfl, rfl⟩

/-! ## What a compilation leaves -/

/-- The findings of a compilation were read from what it said. -/
theorem Compilation.isRead_of_findings {c : Compilation} {d : Diagnostic} (h : d ∈ c.findings) :
    d.IsRead := by
  unfold findings at h
  split at h
  · exact absurd h List.not_mem_nil
  · exact Diagnostic.isRead_of_extract h

theorem Engine.Compiles.wrote {e e' : Engine} {r : Bool} {code : Int} {output errors : String}
    (h : Engine.Compiles e r e') (hlaunched : e'.launched ≠ e.launched)
    (hending : e.setup.machine.nextEnding = .exited code output errors) :
    ∃ c, Engine.Decides e c e' ∧ c.output = output ∧ c.errors = errors ∧
      (c.succeeded = true ↔ code = 0) := by
  cases h with
  | refused hsource => exact absurd rfl hlaunched
  | @missing p s hp hfound hnote =>
    have hnothing := (Engine.noted_of_reread hp.reread).trans (Engine.noted_of_noteOn hnote)
    exact absurd hnothing.launches hlaunched
  | @built p b hp hfound hb =>
    refine ⟨b.compilation, (Engine.keeps_reread e p.setup p.code).decides (b.decides _), ?_⟩
    have hannounced := Engine.noted_of_noteOn hb.announced
    have hbefore := (Engine.noted_of_reread hp.reread).trans hannounced
    have hafter := Engine.noted_of_noteOn hb.reported
    refine (Compiler.compile_eq_ok.1 hb.compiled).wrote ?_ (hbefore.nextEnding.trans hending)
    intro hnothing
    exact hlaunched (hafter.launches.trans (hnothing.trans hbefore.launches))

namespace CommandLine

open Engine (Compiles BuildsWell RunsWell ProbesWell)

/-! ## Reading -/

theorem classify_of_name {w : String} (h : w.toList.head? ≠ some '-') :
    Word.classify w = .ok .operand := by
  unfold Word.classify
  split
  · rfl
  · rfl
  · next hw => exact absurd (congrArg List.head? hw) h
  · rfl

theorem classify_option (mode : Mode) :
    Word.classify mode.option = .ok (.flag (.mode mode) false none) := by
  cases mode <;> decide +kernel

/-- A file whose name begins with no hyphen can stand before and after the mode. -/
theorem read_of_name (mode : Mode) {file : String} (h : file.toList.head? ≠ some '-') :
    Arguments.read [file, mode.option] = .arguments { file := some file, mode := some mode } ∧
      Arguments.read [mode.option, file] = .arguments { file := some file, mode := some mode } := by
  have hfile : file ≠ "--" := by
    rintro rfl
    exact h (by decide)
  have hmode : mode.option ≠ "--" := by cases mode <;> decide
  unfold Arguments.read
  simp [Arguments.classifyAll, classify_of_name h, classify_option, hfile, hmode,
    Arguments.readWords, Arguments.Progress.setFlag, Arguments.Progress.setMode,
    Arguments.Progress.finish]

/-! ## Commands -/

/-- What the command of a mode does when it succeeds. -/
def Succeeds (mode : Mode) (e e' : Engine) : Prop :=
  match mode with
  | .compile | .check => ∃ l, BuildsWell e l e'
  | .run => RunsWell e e'
  | .probe => ProbesWell e e'

theorem perform_run_eq_ok {e e' : Engine} {good : Bool} (h : perform .run e = (.ok good, e')) :
    ∃ x, Engine.run e = (.ok x, e') ∧
      good = (x.isSome && e'.session.lastExecution.any fun y => !y.failed) := by
  obtain ⟨x, t, hrun, h⟩ := Action.bind_eq_ok.1 h
  rw [Action.bind_eq_of_ok (Action.get_apply t)] at h
  obtain ⟨hgood, rfl⟩ := Prod.mk.inj h
  exact ⟨x, hrun, (Except.ok.inj hgood).symm⟩

theorem perform_succeeds_iff {mode : Mode} {e e' : Engine} {good : Bool}
    (h : perform mode e = (.ok good, e')) : good = true ↔ Succeeds mode e e' := by
  cases mode with
  | compile => exact Engine.compile_succeeds_iff h
  | check => exact Engine.check_succeeds_iff h
  | probe => exact Engine.probe_succeeds_iff h
  | run =>
    obtain ⟨x, hrun, rfl⟩ := perform_run_eq_ok h
    exact Engine.run_succeeds_iff hrun

/-- The diagnostics that a command leaves were read, and after a success there are none. -/
structure Tells (good : Bool) (s : Session) : Prop where
  none_of_good : good = true → s.diagnostics = []
  isRead : ∀ d ∈ s.diagnostics, d.IsRead

theorem tells_of_nil {good : Bool} {s : Session} (h : s.diagnostics = []) : Tells good s where
  none_of_good := fun _ => h
  isRead := by simp [h]

theorem tells_of_compiles {e e' : Engine} {r : Bool} (h : Compiles e r e')
    (hnone : e.session.diagnostics = []) : Tells r e'.session := by
  cases h with
  | refused hsource => exact tells_of_nil hnone
  | @missing p s hp hfound hnote =>
    have hkeeps : Engine.Keeps e (e.missing p s) :=
      (Engine.keeps_reread e s p.code).trans ⟨rfl, rfl, rfl⟩
    exact tells_of_nil (hkeeps.diagnostics.trans hnone)
  | @built p b hp hfound hb =>
    have hfindings := (b.decides
      { e with setup := p.setup, session := e.session.reread p.code }).diagnostics
    refine ⟨fun hgood => hfindings.trans (if_pos hgood), fun d hd => ?_⟩
    rw [hfindings] at hd
    exact Compilation.isRead_of_findings hd

theorem tells_of_check {e e' : Engine} {r : Bool} (h : Engine.check e = (.ok r, e'))
    (hnone : e.session.diagnostics = []) : Tells r e'.session := by
  unfold Engine.check at h
  rw [Action.bind_eq_of_ok (Action.get_apply e)] at h
  by_cases hsource : isSource e.session.path = true
  · rw [if_pos hsource, Engine.say_bind] at h
    exact tells_of_compiles (Engine.compile_eq_ok.1 h) hnone
  · rw [if_neg hsource, Action.bind_eq_of_ok (Engine.refuse_apply e)] at h
    obtain ⟨-, rfl⟩ := Prod.mk.inj h
    exact tells_of_nil hnone

/-- To look for a program and to run it changes no diagnostics, and a run succeeds only after its
compilation. -/
theorem tells_of_run {e e' : Engine} {x : Option Execution} (h : Engine.run e = (.ok x, e'))
    (hnone : e.session.diagnostics = []) : Tells x.isSome e'.session := by
  obtain ⟨r, compiled, hcompile, h⟩ := Action.bind_eq_ok.1 h
  have hcompiled := tells_of_compiles (Engine.compile_eq_ok.1 hcompile) hnone
  cases r with
  | false =>
    obtain ⟨hx, rfl⟩ := Prod.mk.inj h
    obtain rfl := Except.ok.inj hx
    exact ⟨fun hsome => (nomatch hsome), hcompiled.isRead⟩
  | true =>
    rw [if_pos rfl, Action.bind_eq_of_ok (Action.get_apply compiled)] at h
    have hkeeps := Engine.quiet_runCompiled compiled.session.path compiled
    rw [h] at hkeeps
    exact tells_of_nil (hkeeps.diagnostics.trans (hcompiled.none_of_good rfl))

theorem tells_of_probe {e e' : Engine} {r : Bool} (h : Engine.probe e = (.ok r, e'))
    (hnone : e.session.diagnostics = []) : Tells r e'.session := by
  rcases (Engine.probe_eq_ok.1 h).keeps with ⟨c, -, hkeeps⟩ | ⟨-, hkeeps⟩
  · exact tells_of_nil (hkeeps.diagnostics.trans hnone)
  · exact tells_of_nil (hkeeps.diagnostics.trans hnone)

theorem tells_of_perform {mode : Mode} {e e' : Engine} {good : Bool}
    (h : perform mode e = (.ok good, e')) (hnone : e.session.diagnostics = []) :
    Tells good e'.session := by
  cases mode with
  | compile => exact tells_of_compiles (Engine.compile_eq_ok.1 h) hnone
  | check => exact tells_of_check h hnone
  | probe => exact tells_of_probe h hnone
  | run =>
    obtain ⟨x, hrun, rfl⟩ := perform_run_eq_ok h
    obtain ⟨hgood, hread⟩ := tells_of_run hrun hnone
    exact ⟨fun hboth => hgood (Bool.and_eq_true_iff.1 hboth).1, hread⟩

/-! ## The command of a command line -/

/-- The engine that is made for a source. The settings are loaded first. -/
def engineFor (m : Machine) (path : String) : Except Failure Engine :=
  match Settings.Store.load (Settings.Store.directoryFor m.home none) m with
  | (.error failure, _) => .error failure
  | (.ok settings, m) => (Engine.make path { machine := m, settings }).1

theorem session_of_engineFor {m : Machine} {path : String} {e : Engine}
    (h : engineFor m path = .ok e) : e.session = { path } := by
  unfold engineFor at h
  split at h
  · exact nomatch h
  · exact Engine.session_of_make (Prod.ext h rfl)

theorem waits_of_engineFor {m : Machine} {path : String} {e : Engine}
    (h : engineFor m path = .ok e) : Waits m e.setup.machine := by
  unfold engineFor at h
  have hload := waits_load (Settings.Store.directoryFor m.home none) m
  split at h
  · exact nomatch h
  · next settings m' heq =>
    rw [heq] at hload
    rw [Engine.setup_of_make (Prod.ext h rfl)]
    exact hload.trans (waits_greet { machine := m', settings })

section
variable {τ : Type} [Rich τ]

theorem oneShot_of_engineFor {m : Machine} {path : String} {mode : Mode} {e e' : Engine}
    {good : Bool} (he : engineFor m path = .ok e) (h : perform mode e = (.ok good, e')) :
    (oneShot mode path : Action Machine (Bool × Session × View.Printed τ)) m =
      ((printReport e'.session).map fun p => (good, e'.session, p), e'.setup.machine) := by
  obtain ⟨r, m', hload⟩ : ∃ r m',
      Settings.Store.load (Settings.Store.directoryFor m.home none) m = (r, m') := ⟨_, _, rfl⟩
  unfold engineFor at he
  unfold oneShot
  rw [hload] at he ⊢
  cases r with
  | error failure => exact nomatch he
  | ok settings =>
    have hmake : Engine.make path { machine := m', settings } =
        (.ok e, (Engine.make path { machine := m', settings }).2) := Prod.ext he rfl
    dsimp only
    rw [hmake]
    dsimp only
    rw [h]

end

/-- The command line comes to its command, which ends with an answer. -/
structure Reaches (m : Machine) (path : String) (mode : Mode) (e : Engine) (good : Bool)
    (e' : Engine) : Prop where
  there : m.seems path = true
  isSource : isSource path = true
  made : engineFor m path = .ok e
  ended : perform mode e = (.ok good, e')

theorem launches_of_complain {τ : Type} {m : Machine} {line : String} :
    (complain m [line] : Result τ).machine.launches = m.launches := rfl

section
variable {τ : Type} [Rich τ]

theorem runArguments_of_refused {m : Machine} (leaving : Leaving) {file : String} {mode : Mode}
    (hfile : file ≠ "") (h : ¬ (m.seems (Path.absolute m.directoryText file).text = true ∧
      isSource (Path.absolute m.directoryText file).text = true)) :
    ∃ line, (runArguments m leaving { file := some file, mode := some mode } : Result τ) =
      complain m [line] := by
  unfold runArguments
  dsimp only [Option.getD_some]
  rw [if_neg hfile]
  by_cases hthere : m.seems (Path.absolute m.directoryText file).text = true
  · have hsource : isSource (Path.absolute m.directoryText file).text = false :=
      Bool.eq_false_iff.2 fun hsource => h ⟨hthere, hsource⟩
    rw [hthere, hsource]
    exact ⟨_, rfl⟩
  · rw [Bool.eq_false_iff.2 hthere]
    exact ⟨_, rfl⟩

theorem runArguments_of_reaches {m : Machine} {leaving : Leaving} {file : String} {mode : Mode}
    {e e' : Engine} {good : Bool} (hfile : file ≠ "")
    (h : Reaches m (Path.absolute m.directoryText file).text mode e good e') :
    (runArguments m leaving { file := some file, mode := some mode } : Result τ) =
      match printReport e'.session with
      | .error failure => { ending := .failed failure, machine := e'.setup.machine }
      | .ok p =>
        { ending := .exited (if good then 0 else 1), machine := e'.setup.machine
          reports := [(e'.session, p)] } := by
  unfold runArguments
  dsimp only [Option.getD_some]
  rw [if_neg hfile, h.there, h.isSource, oneShot_of_engineFor h.made h.ended]
  cases (printReport e'.session : Except Failure (View.Printed τ)) <;> rfl

theorem run_of_read {m : Machine} {leaving : Leaving} {words : List String} {a : Arguments}
    (h : Arguments.read words = .arguments a) :
    (run m leaving words : Result τ) = runArguments m leaving a := by
  unfold run
  rw [h]

/-- The report of a session is printed to its end. -/
def Reported (s : Session) (result : Result τ) : Prop :=
  ∃ r p, View.report s = .ok r ∧ r.print = .ok p ∧ View.PrintsAlike s p ∧ result.reports = [(s, p)]

/-- Of diagnostics that were read, one about the last column that can be read is in the way of the
report, and a message with marks that cannot be read is in the way of its printing. -/
theorem printReport_cases [LawfulRich τ] {s : Session} (h : ∀ d ∈ s.diagnostics, d.IsRead) :
    ((∀ d ∈ s.diagnostics, d.column + 1 ≠ digitBound) ∧
        (∀ d ∈ s.diagnostics, Rich.Readable τ d.message) ∧
        ∃ (r : View.Report τ) (p : View.Printed τ), View.report s = .ok r ∧ r.print = .ok p ∧
          View.PrintsAlike s p ∧ printReport s = .ok p) ∨
      ((∃ d ∈ s.diagnostics, d.column + 1 = digitBound) ∧
        (printReport s : Except Failure (View.Printed τ)) = .error .numberTooLong) ∨
      ((∀ d ∈ s.diagnostics, d.column + 1 ≠ digitBound) ∧
        ∃ d ∈ s.diagnostics, ∃ failure,
          (Rich.read d.message : Except Failure τ) = .error failure ∧
          (printReport s : Except Failure (View.Printed τ)) = .error failure) := by
  unfold printReport
  rcases View.report_cases τ h with ⟨hshown, hreport⟩ | ⟨hlast, hreport⟩
  · rw [hreport]
    rcases View.print_cases (τ := τ) s with
      ⟨hreadable, p, hp, halike⟩ | ⟨d, hd, failure, hread, hprint⟩
    · exact .inl ⟨hshown, hreadable, _, p, rfl, hp, halike, hp⟩
    · exact .inr (.inr ⟨hshown, d, hd, failure, hread, hprint⟩)
  · rw [hreport]
    exact .inr (.inl ⟨hlast, rfl⟩)

/-- How a command line ends that came to its command. -/
theorem ending_of_reaches [LawfulRich τ] {m : Machine} (leaving : Leaving) {file : String}
    {mode : Mode} {e e' : Engine} {good : Bool} (hfile : file ≠ "")
    (h : Reaches m (Path.absolute m.directoryText file).text mode e good e') :
    let result : Result τ := runArguments m leaving { file := some file, mode := some mode }
    result.machine = e'.setup.machine ∧ (result.ending = .exited 0 ↔ good = true) ∧
      ((∀ d ∈ e'.session.diagnostics, d.column + 1 ≠ digitBound) →
        (∀ d ∈ e'.session.diagnostics, Rich.Readable τ d.message) →
        result.ending = .exited (if good then 0 else 1) ∧ Reported e'.session result) ∧
      ((∃ d ∈ e'.session.diagnostics, d.column + 1 = digitBound) →
        result.ending = .failed .numberTooLong ∧ good = false ∧ result.reports = []) ∧
      ((∀ d ∈ e'.session.diagnostics, d.column + 1 ≠ digitBound) →
        (∃ d ∈ e'.session.diagnostics, ¬ Rich.Readable τ d.message) →
        (∃ d ∈ e'.session.diagnostics, ∃ failure,
          (Rich.read d.message : Except Failure τ) = .error failure ∧
            result.ending = .failed failure) ∧ good = false ∧ result.reports = []) := by
  have hnone : e.session.diagnostics = [] := by
    rw [session_of_engineFor h.made]
    rfl
  have htells := tells_of_perform h.ended hnone
  have hgood : ∀ d ∈ e'.session.diagnostics, good = false := by
    intro d hd
    refine Bool.eq_false_iff.2 fun hgood => ?_
    rw [htells.none_of_good hgood] at hd
    exact List.not_mem_nil hd
  dsimp only
  rw [runArguments_of_reaches hfile h]
  rcases printReport_cases (τ := τ) htells.isRead with ⟨hshown, hreadable, r, p, hr, hp, halike, hprint⟩ |
    ⟨⟨d, hd, hcolumn⟩, hprint⟩ | ⟨hshown, d, hd, failure, hread, hprint⟩
  · rw [hprint]
    refine ⟨rfl, ?_, fun _ _ => ⟨rfl, r, p, hr, hp, halike, rfl⟩, ?_, ?_⟩
    · cases good <;> simp
    · rintro ⟨d, hd, hcolumn⟩
      exact absurd hcolumn (hshown d hd)
    · rintro - ⟨d, hd, hunreadable⟩
      exact absurd (hreadable d hd) hunreadable
  · rw [hprint]
    have hfailed := hgood d hd
    refine ⟨rfl, by simp [hfailed], fun hshown => absurd hcolumn (hshown d hd), ?_,
      fun hshown => absurd hcolumn (hshown d hd)⟩
    exact fun _ => ⟨rfl, hfailed, rfl⟩
  · rw [hprint]
    have hfailed := hgood d hd
    refine ⟨rfl, by simp [hfailed], fun _ hreadable => ?_, ?_, ?_⟩
    · obtain ⟨t, ht⟩ := hreadable d hd
      exact absurd (ht.symm.trans hread) (by simp)
    · rintro ⟨d, hd, hcolumn⟩
      exact absurd hcolumn (hshown d hd)
    · exact fun _ _ => ⟨⟨d, hd, failure, hread, rfl⟩, hfailed, rfl⟩

/-- Without a source, or with a file that is none, the exit code is 1, and nothing is launched.
Where the command line comes to its command and this gives an answer, the exit code is 0 if the
command succeeds and 1 if not, and the report of the session at the end is printed. There are two
exceptions, both of compilations that failed: if a message is about the last column that can be read,
there is no report, and if the marks in a message cannot be read, it is not printed to its end. -/
theorem ending_of_command (τ : Type) [Rich τ] [LawfulRich τ] (m : Machine) (leaving : Leaving)
    {words : List String} {file : String} {mode : Mode}
    (hread : Arguments.read words = .arguments { file := some file, mode := some mode })
    (hfile : file ≠ "") :
    let path := (Path.absolute m.directoryText file).text
    let result : Result τ := run m leaving words
    (¬ (m.seems path = true ∧ isSource path = true) → result.ending = .exited 1 ∧
      result.reports = [] ∧ result.machine.launches = m.launches) ∧
    ∀ (e e' : Engine) (good : Bool), Reaches m path mode e good e' →
      Waits m e.setup.machine ∧ result.machine = e'.setup.machine ∧
      (good = true ↔ Succeeds mode e e') ∧
      (result.ending = .exited 0 ↔ Succeeds mode e e') ∧
      ((∀ d ∈ e'.session.diagnostics, d.column + 1 ≠ digitBound) →
        (∀ d ∈ e'.session.diagnostics, Rich.Readable τ d.message) →
        result.ending = .exited (if good then 0 else 1) ∧ Reported e'.session result) ∧
      ((∃ d ∈ e'.session.diagnostics, d.column + 1 = digitBound) →
        result.ending = .failed .numberTooLong ∧ good = false ∧ result.reports = []) ∧
      ((∀ d ∈ e'.session.diagnostics, d.column + 1 ≠ digitBound) →
        (∃ d ∈ e'.session.diagnostics, ¬ Rich.Readable τ d.message) →
        (∃ d ∈ e'.session.diagnostics, ∃ failure,
          (Rich.read d.message : Except Failure τ) = .error failure ∧
            result.ending = .failed failure) ∧ good = false ∧ result.reports = []) := by
  dsimp only
  rw [run_of_read hread]
  refine ⟨fun hrefused => ?_, fun e e' good h => ?_⟩
  · obtain ⟨line, hline⟩ := runArguments_of_refused (τ := τ) leaving hfile hrefused
    rw [hline]
    exact ⟨rfl, rfl, launches_of_complain⟩
  · obtain ⟨hmachine, hending, hshown⟩ := ending_of_reaches (τ := τ) leaving hfile h
    have hsucceeds := perform_succeeds_iff h.ended
    exact ⟨waits_of_engineFor h.made, hmachine, hsucceeds, hending.trans hsucceeds, hshown⟩

end

/-- A machine with a source and the compiler, the processes of which do this. -/
def sourceMachine (outcomes : List Machine.Outcome) : Machine where
  disk := [(["tmp"], .directory), (["home"], .directory), (["home", "user"], .directory),
    (["w"], .directory), (["w", "a.cple"], .file (.bytes [])), (["opt"], .directory),
    (["opt", "cplebolt"], .directory), (["opt", "cplebolt", "bin"], .directory),
    (["opt", "cplebolt", "bin", "cple.out"], .file (.bytes []))]
  outcomes

theorem path_sourceMachine (outcomes : List Machine.Outcome) :
    (Path.absolute (sourceMachine outcomes).directoryText "/w/a.cple").text = "/w/a.cple" := by
  have hdirectory : (sourceMachine outcomes).directoryText = (sourceMachine []).directoryText := rfl
  rw [hdirectory]
  decide +kernel

/-- The compiler makes a program, and both end well. -/
theorem ending_of_sourceMachine :
    let m := sourceMachine [{ files := [(["w", "a.exe"], .bytes [])] }, {}]
    Arguments.read ["/w/a.cple", "--run"] =
        .arguments { file := some "/w/a.cple", mode := some .run } ∧
      "/w/a.cple" ≠ "" ∧
      ∃ e e', Reaches m "/w/a.cple" .run e true e' ∧ RunsWell e e' ∧
        (run m .quit ["/w/a.cple", "--run"] : Result StyledText).ending = .exited 0 := by
  intro m
  have hread : Arguments.read ["/w/a.cple", "--run"] =
      .arguments { file := some "/w/a.cple", mode := some .run } :=
    (read_of_name .run (by decide)).1
  have hname : "/w/a.cple" ≠ "" := by decide
  have hgood : (engineFor m "/w/a.cple").toOption.map (fun e => (perform .run e).1.toOption) =
      some (some true) := by decide +kernel
  obtain ⟨e, he, htrue⟩ := Option.map_eq_some_iff.1 hgood
  have hreaches : Reaches m "/w/a.cple" .run e true (perform .run e).2 :=
    ⟨by decide +kernel, by decide +kernel, Action.eq_ok_of_toOption he,
      Action.eq_of_toOption htrue⟩
  have hending := (ending_of_command StyledText m .quit hread hname).2 e (perform .run e).2 true
    ((path_sourceMachine _).symm ▸ hreaches)
  exact ⟨hread, hname, e, _, hreaches, hending.2.2.1.1 rfl, hending.2.2.2.1.2 (hending.2.2.1.1 rfl)⟩

/-- A message about the last column that can be read. -/
def lastColumn : Diagnostic.Printed :=
  ⟨.located "a.cple" (digitBound - 1) .error "error", 1, "x"⟩

theorem extract_lastColumn :
    Diagnostic.extract Diagnostic.Shape.all lastColumn.text = [lastColumn.diagnostic] :=
  Diagnostic.extract_messageAt (Nat.sub_lt Number.digitBound_pos Nat.zero_lt_one)

/-- A failed compilation of which nothing but this message is known finds it and nothing else. -/
theorem findings_of_lastColumn {c : Compilation} (hfailed : c.succeeded = false)
    (herrors : c.errors = lastColumn.text) : c.findings = [lastColumn.diagnostic] := by
  have hsaid : lastColumn.text ≠ "" := by
    intro hnothing
    have hlist : lastColumn.text.toList = [] := by rw [hnothing]; rfl
    rw [Diagnostic.Printed.toList_text] at hlist
    exact nomatch hlist
  have htext : c.diagnosticText = lastColumn.text := by
    unfold Compilation.diagnosticText
    rw [herrors, if_neg hsaid]
  unfold Compilation.findings
  rw [hfailed, if_neg Bool.false_ne_true, htext, extract_lastColumn]

/-- The command comes to its end, and there is no report. -/
theorem unreported_lastColumn :
    let m := sourceMachine [{ ending := .exited 1 "" lastColumn.text }]
    (∃ e e', Reaches m "/w/a.cple" .compile e false e') ∧
      (run m .quit ["/w/a.cple", "--compile"] : Result StyledText).ending = .failed .numberTooLong ∧
      (run m .quit ["/w/a.cple", "--compile"] : Result StyledText).reports = [] := by
  intro m
  have hread : Arguments.read ["/w/a.cple", "--compile"] =
      .arguments { file := some "/w/a.cple", mode := some .compile } :=
    (read_of_name .compile (by decide)).1
  have hevaluated : (engineFor m "/w/a.cple").toOption.map (fun e =>
      ((perform .compile e).1.toOption, (perform .compile e).2.launched.length)) =
        some (some false, 1) := by decide +kernel
  obtain ⟨e, he, hends⟩ := Option.map_eq_some_iff.1 hevaluated
  obtain ⟨hfalse, hone⟩ := Prod.mk.inj hends
  have hreaches : Reaches m "/w/a.cple" .compile e false (perform .compile e).2 :=
    ⟨by decide +kernel, by decide +kernel, Action.eq_ok_of_toOption he,
      Action.eq_of_toOption hfalse⟩
  have hwaits := waits_of_engineFor hreaches.made
  have hending : e.setup.machine.nextEnding = .exited 1 "" lastColumn.text := hwaits.nextEnding
  have hlaunched : (perform .compile e).2.launched ≠ e.launched := by
    intro hnothing
    have hnone : (perform .compile e).2.launched = [] := hnothing.trans hwaits.launches
    rw [hnone] at hone
    exact nomatch hone
  obtain ⟨c, hdecides, -, herrors, hfailed⟩ :=
    (Engine.compile_eq_ok.1 hreaches.ended).wrote hlaunched hending
  have hfindings : (perform .compile e).2.session.diagnostics = [lastColumn.diagnostic] :=
    hdecides.diagnostics.trans
      (findings_of_lastColumn (Bool.eq_false_iff.2 fun hgood => nomatch hfailed.1 hgood) herrors)
  obtain ⟨-, -, -, hlast, -⟩ := ending_of_reaches (τ := StyledText) .quit
    (by decide : "/w/a.cple" ≠ "") ((path_sourceMachine _).symm ▸ hreaches)
  obtain ⟨hfails, -, hreports⟩ :=
    hlast ⟨_, hfindings ▸ List.mem_singleton_self _, Diagnostic.last_column_succ⟩
  rw [run_of_read hread]
  exact ⟨⟨e, _, hreaches⟩, hfails, hreports⟩

end CommandLine

end Workbench
