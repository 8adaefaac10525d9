import Workbench.Proofs.Compiler.Arguments
import Workbench.Proofs.Settings.Showable

/-!
# What comes of a launch

* `Fails s l e` : a launch comes to no result. It fails of itself, what its process wrote is no text,
  or the process took too long and the time has no text;
* `compile_eq_error_iff`, `execute_eq_error_iff` : with a compiler that can be looked up and with
  arguments that can be split, there is no other failure;
* `Judged s source found c t` : what a compilation says about its launch;
* `Ran s program directory x t` : what an execution says about its launch;
* `outcomes_of_launches` : every launch has one of these outcomes;
* `raised_by_launches` : launches that come to no result.
-/

namespace Workbench

namespace Machine.Ending

/-- The process was not started, was stopped, or ended with another code than zero. -/
inductive IsFailure : Ending → Prop
  | refused {fault : Fault} {path : Option String} : IsFailure (.refused fault path)
  | timedOut {output errors : Captured} : IsFailure (.timedOut output errors)
  | exited {code : Int} {output errors : String} (h : code ≠ 0) :
      IsFailure (.exited code output errors)

theorem isFailure_iff {ending : Ending} (h : ∀ e, ending ≠ .failed e) :
    ending.IsFailure ↔ ¬ ending.IsSuccess := by
  constructor
  · rintro h ⟨output, errors, rfl⟩
    cases h with
    | exited h => exact h rfl
  · intro hno
    cases ending with
    | refused fault path => exact .refused
    | timedOut output errors => exact .timedOut
    | exited code output errors =>
      refine .exited fun hcode => hno ⟨output, errors, ?_⟩
      rw [hcode]
    | failed e => exact absurd rfl (h e)

end Machine.Ending

namespace Compiler

open Machine (Ending Launch)
open Settings.Store (Configured)
open Text (CodePoints)

/-! ## Failures -/

/-- A configured time can be shown. -/
theorem isSome_display?_timeout {s : Settings.Store} (h : Configured s) :
    (timeout s).display?.isSome := by
  unfold timeout
  cases ht : s.get? "timeout" with
  | none =>
    have hdefault : Record.get? Settings.defaults "timeout" = some (.int 30) := rfl
    exact Settings.Value.isSome_display?
      (Settings.Store.isSome_quoted?_defaults _ (Record.mem_values_of_get? hdefault))
  | some v =>
    exact Settings.Value.isSome_display? (h.isSome_quoted? v (Record.mem_values_of_get? ht))

/-- A launch comes to no result. -/
inductive Fails (s : Setup) (l : Launch) : Failure → Prop
  | balks {e : Failure} (h : s.machine.Balks l e) : Fails s l e
  | silent {e : Failure} (hlets : ∀ e, ¬ s.machine.Balks l e)
      (h : Silent s.settings s.machine.nextEnding e) : Fails s l e

/-- A launch to which nothing is objected has a result if its process exits. -/
theorem not_fails_of_exited {s : Setup} {l : Launch} {code : Int} {output errors : String}
    (h : s.machine.objection? l = none)
    (hending : s.machine.nextEnding = .exited code output errors) : ∀ e, ¬ Fails s l e := by
  rintro e (hbalks | ⟨-, hsilent⟩)
  · exact Machine.lets_of_unobjected h e hbalks
  · rw [hending] at hsilent
    cases hsilent

/-- With configured settings, a launch fails of itself, or its process came to an end that cannot be
told. -/
theorem Fails.of_configured {s : Setup} {l : Launch} {e : Failure} (h : Fails s l e)
    (hs : Configured s.settings) : s.machine.Balks l e ∨ s.machine.nextEnding = .failed e := by
  have hshown := isSome_display?_timeout hs
  cases h with
  | balks h => exact .inl h
  | silent hlets h =>
    cases hending : s.machine.nextEnding with
    | refused fault path | exited code output errors =>
      rw [hending] at h
      cases h
    | timedOut output errors =>
      rw [hending] at h
      cases h with
      | timedOut hnone =>
        rw [hnone] at hshown
        exact nomatch hshown
    | failed e' =>
      rw [hending] at h
      cases h with
      | failed => exact .inr rfl

/-! ## Compilations -/

section Compilations
variable {s t : Setup} {source : String} {compiler : Path} {found : Bool} {words : List CodePoints}

theorem compile_of_missing (hcompiler : resolve s = .ok compiler)
    (hfound : s.machine.pathExists compiler.text = .ok false) :
    compile source s = (.ok { succeeded := false, error := missingText compiler }, s) :=
  compile_eq_ok.2 (.missing hcompiler hfound)

/-- The launch of a compiler for a source, with arguments. -/
def launchOf (s : Setup) (source : String) (compiler : Path) (words : List CodePoints) : Launch :=
  compilerLaunch s.settings source (compiler.text :: source :: words)

theorem compile_eq_error_iff (hcompiler : resolve s = .ok compiler)
    (hfound : s.machine.pathExists compiler.text = .ok found)
    (hwords : arguments s.settings = .ok words) {failure : Failure} :
    (compile source s).1 = .error failure ↔
      found = true ∧ Fails s (launchOf s source compiler words) failure := by
  cases found with
  | false =>
    rw [compile_of_missing hcompiler hfound]
    exact iff_of_false (fun hno => nomatch hno) fun hno => nomatch hno.1
  | true =>
    have hcommand := (passesOn_of_arguments hwords source).command compiler hcompiler
    rw [and_iff_right rfl]
    by_cases hlets : ∀ e, ¬ s.machine.Balks (launchOf s source compiler words) e
    · rw [compile_of_found hcompiler hfound hcommand hlets, compilationOf_eq_error_iff]
      constructor
      · exact .silent hlets
      · rintro (hbalks | ⟨-, hsilent⟩)
        · exact absurd hbalks (hlets failure)
        · exact hsilent
    · obtain ⟨e, he⟩ := not_forall_not.1 hlets
      have hfails := compile_of_balks hcompiler hfound hcommand he
      constructor
      · intro h
        obtain rfl := Except.error.inj (hfails.symm.trans h)
        exact .balks he
      · rintro (hbalks | ⟨hlets', -⟩)
        · exact compile_of_balks hcompiler hfound hcommand hbalks
        · exact absurd he (hlets' e)

/-- A compilation launches at most one process, also where it has no result. -/
theorem launches_compile (hcompiler : resolve s = .ok compiler)
    (hfound : s.machine.pathExists compiler.text = .ok found)
    (hwords : arguments s.settings = .ok words) :
    (compile source s).2.machine.launches = s.machine.launches ∨
      (compile source s).2.machine.launches =
        s.machine.launches ++ [launchOf s source compiler words] := by
  cases found with
  | false =>
    rw [compile_of_missing hcompiler hfound]
    exact .inl rfl
  | true =>
    have hcommand := (passesOn_of_arguments hwords source).command compiler hcompiler
    rw [setup_compile hcompiler hfound hcommand]
    rcases s.machine.launch_started_or_same (launchOf s source compiler words) with h | h
    · exact .inr (congrArg Machine.launches h)
    · exact .inl (congrArg Machine.launches h)

/-- What a compilation says about its launch: there is at most one, and the compiler was launched just
if it was found. -/
structure Judged (s : Setup) (source : String) (found : Bool) (c : Compilation) (t : Setup) :
    Prop where
  launches : t.machine.launches = s.machine.launches ++
    if found then [compilerLaunch s.settings source c.command] else []
  succeeded : c.succeeded = true ↔ found = true ∧ s.machine.nextEnding.IsSuccess
  failed : c.succeeded = false → c.diagnosticText ≠ ""
  wrote : ∀ code output errors, found = true → s.machine.nextEnding = .exited code output errors →
    errors ≠ "" → c.diagnosticText = errors
  command : c.command = [] ↔ t.machine.launches = s.machine.launches

theorem diagnosticText_of_errors {c : Compilation} (h : c.errors ≠ "") :
    c.diagnosticText = c.errors := if_neg h

/-- What is wrong is said in words, and what the compiler said comes before them. -/
theorem diagnosticText_ne_empty {c : Compilation} (h : c.error ≠ "") : c.diagnosticText ≠ "" := by
  unfold Compilation.diagnosticText
  split
  · exact h
  · next herrors => exact herrors

/-- A launch that amounts to a failure amounts to a reason for it. One case for each ending. -/
theorem error_compilationOf {r : Settings.Store} {ending : Ending} {seconds : Float} {c : Compilation}
    (h : compilationOf r words ending seconds = .ok c) (hfailed : c.succeeded = false) :
    c.error ≠ "" := by
  cases amountsTo_of_compilationOf h with
  | timedOut hshown => simp
  | refused => simp
  | succeeded => exact nomatch hfailed
  | failed hcode => simp

theorem missingText_ne_empty (compiler : Path) : missingText compiler ≠ "" := by
  unfold missingText
  simp

theorem judged_of_missing (s : Setup) (source : String) (compiler : Path) :
    Judged s source false { succeeded := false, error := missingText compiler } s where
  launches := (List.append_nil _).symm
  succeeded := by simp
  failed _ := missingText_ne_empty compiler
  wrote _ _ _ hfound := nomatch hfound
  command := iff_of_true rfl rfl

theorem judged_of_launched {c : Compilation} {seconds : Float} (hne : words ≠ [])
    (hc : compilationOf s.settings words s.machine.nextEnding seconds = .ok c) :
    Judged s source true c (s.afterLaunch (compilerLaunch s.settings source words)) := by
  obtain ⟨rfl, hsucceeded⟩ := succeeded_compilationOf hc
  refine ⟨rfl, by simpa using hsucceeded, ?_, ?_, ?_⟩
  · exact fun hfailed => diagnosticText_ne_empty (error_compilationOf hc hfailed)
  · intro code output errors _ hending herrors
    rw [hending] at hc
    obtain ⟨-, rfl, -⟩ := wrote_compilationOf hc
    exact diagnosticText_of_errors herrors
  · refine iff_of_false hne fun hsame => ?_
    have hlaunches : s.machine.launches ++ [compilerLaunch s.settings source c.command] =
        s.machine.launches := hsame
    simp at hlaunches

/-- A compilation that has a result is judged by its launch. -/
theorem judged_of_compile (hcompiler : resolve s = .ok compiler)
    (hfound : s.machine.pathExists compiler.text = .ok found)
    (hwords : arguments s.settings = .ok words) {c : Compilation}
    (h : compile source s = (.ok c, t)) : Judged s source found c t := by
  cases found with
  | false =>
    rw [compile_of_missing hcompiler hfound] at h
    obtain ⟨hc, rfl⟩ := Prod.mk.inj h
    obtain rfl := Except.ok.inj hc
    exact judged_of_missing s source compiler
  | true =>
    have hcommand := (passesOn_of_arguments hwords source).command compiler hcompiler
    have hlets : ∀ e, ¬ s.machine.Balks (launchOf s source compiler words) e := by
      intro e he
      have hfails := compile_of_balks hcompiler hfound hcommand he
      rw [h] at hfails
      exact nomatch hfails
    rw [compile_of_found hcompiler hfound hcommand hlets] at h
    obtain ⟨hc, rfl⟩ := Prod.mk.inj h
    exact judged_of_launched (List.cons_ne_nil _ _) hc

end Compilations

/-! ## Executions -/

theorem execute_eq_error_iff {program : Path} {directory : String} {s : Setup} {failure : Failure} :
    (execute program directory s).1 = .error failure ↔
      Fails s (launchFrom s.settings program directory) failure := by
  by_cases hlets : ∀ e, ¬ s.machine.Balks (launchFrom s.settings program directory) e
  · rw [execute_apply hlets, executionOf_eq_error_iff]
    constructor
    · exact .silent hlets
    · rintro (hbalks | ⟨-, hsilent⟩)
      · exact absurd hbalks (hlets failure)
      · exact hsilent
  · obtain ⟨e, he⟩ := not_forall_not.1 hlets
    constructor
    · intro h
      obtain rfl := Except.error.inj ((execute_of_balks he).symm.trans h)
      exact .balks he
    · rintro (hbalks | ⟨hlets', -⟩)
      · exact execute_of_balks hbalks
      · exact absurd he (hlets' e)

/-- What an execution says about its launch. -/
structure Ran (s : Setup) (program : Path) (directory : String) (x : Execution) (t : Setup) :
    Prop where
  launches : t.machine.launches = s.machine.launches ++ [launchFrom s.settings program directory]
  failed : x.failed = true ↔ s.machine.nextEnding.IsFailure

/-- An ending that amounts to an execution can be told. -/
theorem told_of_executionOf {r : Settings.Store} {ending : Ending} {words : List CodePoints}
    {seconds : Float} {x : Execution} (h : executionOf r words ending seconds = .ok x) :
    ∀ e, ending ≠ .failed e := by
  rintro e rfl
  exact nomatch h

theorem ran_of_execute {program : Path} {directory : String} {s t : Setup} {x : Execution}
    (h : execute program directory s = (.ok x, t)) : Ran s program directory x t := by
  rw [execute_apply (lets_of_execute h)] at h
  obtain ⟨hx, rfl⟩ := Prod.mk.inj h
  refine ⟨rfl, ?_⟩
  rw [Ending.isFailure_iff (told_of_executionOf hx), ← failed_executionOf hx]
  simp

/-! ## Every launch -/

/-- A compilation launches the compiler at most once. If it has a result, that judges the launch
rightly: it succeeds just if the compiler was there and exited with code zero, it has something to
say whenever it failed, and it names a command just if there was a launch. An execution has failed
just if the program could not be started, was stopped, or ended with another code than zero. There
is no result just if the launch comes to none: a word cannot be passed to a process, the time is no
number, or what the process wrote is no text. Only with settings that nobody can save, a time of too
many digits is another reason. -/
theorem outcomes_of_launches (s : Setup) :
    (∀ (source : String) (compiler : Path) (found : Bool) (words : List CodePoints),
      resolve s = .ok compiler → s.machine.pathExists compiler.text = .ok found →
      arguments s.settings = .ok words →
        let l := launchOf s source compiler words
        ((compile source s).2.machine.launches = s.machine.launches ∨
          (compile source s).2.machine.launches = s.machine.launches ++ [l]) ∧
        (∀ c t, compile source s = (.ok c, t) → Judged s source found c t) ∧
        (∀ failure, (compile source s).1 = .error failure ↔ found = true ∧ Fails s l failure)) ∧
    (∀ (program : Path) (directory : String),
      (∀ x t, execute program directory s = (.ok x, t) → Ran s program directory x t) ∧
      ∀ failure, (execute program directory s).1 = .error failure ↔
        Fails s (launchFrom s.settings program directory) failure) ∧
    (Configured s.settings → ∀ l failure, Fails s l failure →
      s.machine.Balks l failure ∨ s.machine.nextEnding = .failed failure) := by
  refine ⟨?_, ?_, fun hconfigured l failure hfails => hfails.of_configured hconfigured⟩
  · intro source compiler found words hcompiler hfound hwords l
    exact ⟨launches_compile hcompiler hfound hwords,
      fun c t => judged_of_compile hcompiler hfound hwords,
      fun failure => compile_eq_error_iff hcompiler hfound hwords⟩
  · intro program directory
    exact ⟨fun x t => ran_of_execute, fun failure => execute_eq_error_iff⟩

/-! ## Launches that are evaluated -/

/-- The settings of a new user with some of them changed, and a compiler that ends so. -/
def endingSetup (changes : List (String × Settings.Value)) (ending : Ending) : Setup where
  machine :=
    { disk := [(["opt"], .directory), (["opt", "cplebolt"], .directory),
        (["opt", "cplebolt", "bin"], .directory),
        (["opt", "cplebolt", "bin", "cple.out"], .file (.bytes []))]
      outcomes := [{ ending }] }
  settings := changes.foldl (fun store change => store.put change.1 change.2)
    { directory := Settings.Store.userDirectory, values := Settings.defaults }

/-- A compiler that is stopped after it wrote something. -/
def lateSetup : Setup := endingSetup [] (.timedOut (.text "half") .nothing)

theorem resolve_lateSetup : resolve lateSetup = .ok bundled ∧
    lateSetup.machine.pathExists bundled.text = .ok true ∧
    arguments lateSetup.settings = .ok [] :=
  ⟨Action.eq_ok_of_toOption (by decide +kernel), Action.eq_ok_of_toOption (by decide +kernel), rfl⟩

theorem not_fails_lateSetup {l : Launch} (h : lateSetup.machine.objection? l = none)
    (failure : Failure) : ¬ Fails lateSetup l failure := by
  have hshown : (timeout lateSetup.settings).display? ≠ none := by decide +kernel
  rintro (hbalks | ⟨-, hsilent⟩)
  · exact Machine.lets_of_unobjected h failure hbalks
  · cases hsilent with
    | timedOut hnone => exact hshown hnone

theorem outcomes_of_lateSetup :
    (∃ c t, compile "/w/a.cple" lateSetup = (.ok c, t) ∧ c.succeeded = false ∧
      c.diagnosticText ≠ "" ∧ c.command ≠ [] ∧
      t.machine.launches = [compilerLaunch lateSetup.settings "/w/a.cple" c.command]) ∧
    ∃ x t, execute (Path.ofText "/w/a.exe") "" lateSetup = (.ok x, t) ∧ x.failed = true := by
  obtain ⟨hcompiler, hfound, hwords⟩ := resolve_lateSetup
  obtain ⟨hcompile, hexecute, -⟩ := outcomes_of_launches lateSetup
  constructor
  · obtain ⟨-, hjudged, hfails⟩ := hcompile "/w/a.cple" bundled true [] hcompiler hfound hwords
    obtain ⟨c, t, h⟩ := Action.exists_ok_of_no_error (a := compile "/w/a.cple") (s := lateSetup)
      fun failure hfailure =>
        not_fails_lateSetup (by decide +kernel) failure ((hfails failure).1 hfailure).2
    have hjudged := hjudged c t h
    have hfailed : c.succeeded = false := by
      rw [← Bool.not_eq_true, hjudged.succeeded]
      rintro ⟨-, output, errors, hending⟩
      exact nomatch hending
    refine ⟨c, t, h, hfailed, hjudged.failed hfailed, fun hnone => ?_, hjudged.launches⟩
    have hsame := hjudged.command.1 hnone
    rw [hjudged.launches] at hsame
    exact nomatch hsame
  · obtain ⟨hran, hfails⟩ := hexecute (Path.ofText "/w/a.exe") ""
    obtain ⟨x, t, h⟩ := Action.exists_ok_of_no_error (a := execute (Path.ofText "/w/a.exe") "")
      (s := lateSetup) fun failure hfailure =>
        not_fails_lateSetup (by decide +kernel) failure ((hfails failure).1 hfailure)
    exact ⟨x, t, h, (hran x t h).failed.2 .timedOut⟩

/-- A compiler with a null character among its arguments. -/
def nullSetup : Setup :=
  endingSetup [("compiler_args", .text (CodePoints.ofString "a\x00b"))] (.exited 0 "" "")

/-- A null character among the arguments, a text as the time, and an output that is no text: each of
them is a failure of the compilation, and in the first case nothing was launched. -/
theorem raised_by_launches :
    (resolve nullSetup = .ok bundled ∧ nullSetup.machine.pathExists bundled.text = .ok true ∧
      arguments nullSetup.settings = .ok [CodePoints.ofString "a\x00b"] ∧
      (compile "/w/a.cple" nullSetup).1 = .error .nullInPath ∧
      (compile "/w/a.cple" nullSetup).2.machine.launches.length = 0) ∧
    (compile "/w/a.cple" (endingSetup [("timeout", .text (CodePoints.ofString "30"))]
      (.exited 0 "" ""))).1 = .error (.notSeconds "str") ∧
    (compile "/w/a.cple" (endingSetup [] (.failed (.notText
      { offset := 0, length := 1, first := 0xFF, reason := .invalidStart })))).1 =
        .error (.notText { offset := 0, length := 1, first := 0xFF, reason := .invalidStart }) := by
  refine ⟨⟨?_, ?_, ?_, ?_, ?_⟩, ?_, ?_⟩
  · exact Action.eq_ok_of_toOption (by decide +kernel)
  · exact Action.eq_ok_of_toOption (by decide +kernel)
  · exact Action.eq_ok_of_toOption (by decide +kernel)
  · exact Action.eq_error_of_failure? (by decide +kernel)
  · decide +kernel
  · exact Action.eq_error_of_failure? (by decide +kernel)
  · exact Action.eq_error_of_failure? (by decide +kernel)

end Compiler

end Workbench
