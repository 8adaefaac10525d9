import Workbench.Proofs.Artifact.Failures
import Workbench.Proofs.Engine.Launches
import Workbench.Proofs.Engine.Probe

/-!
# What a run says about a search that fails

After a compilation, a run looks for the program at the default places and at the configured ones.

* `logOpen_of_compile` : the log file can be written to by then, since it has been;
* `Reports e failure e'` : what is said about a template that is bad and about a candidate that
  cannot be checked, with the status that remains;
* `Reports.runCompiled_eq`, `runCompiled_of_not_isReport` : a failure of the search is reported or
  ends the run;
* `failures_of_search` : which failures there are, and what becomes of each of them in a run.
-/

namespace Workbench.Engine

open Text (CodePoints)
open Artifact (Breaks Fails Faulty failureOf locate templatesOf withDefaults)

/-! ## The log file -/

/-- The result of a compilation was written to the log file. -/
theorem logOpen_of_compile {e compiled : Engine} (h : compile e = (.ok true, compiled)) :
    LogOpen compiled.setup.machine := by
  have hcompiles := compile_eq_ok.1 h
  -- Only a compilation for which the compiler was launched can succeed.
  generalize hr : true = r at hcompiles
  cases hcompiles with
  | refused | missing => exact nomatch hr
  | @built p b hp hfound hb =>
    obtain ⟨hlog, -⟩ := withDisk_of_noteOn hb.reported
    exact (noted_of_noteOn hb.reported).logOpen hlog

/-! ## Reports -/

/-- What is said about a failure of the search, and the status after it. -/
inductive Reports (e : Engine) : Failure → Engine → Prop
  | badTemplate {template : String} {fault : Template.Fault} {s : Setup}
      (hnote : noteOn ("Bad artifact template: " ++ (Failure.badTemplate template fault).message)
        e.setup = (.ok (), s)) :
      Reports e (.badTemplate template fault)
        ((e.logged ["❌ " ++ (Failure.badTemplate template fault).message,
          "Fix artifact_candidates in your config. Placeholders: " ++
            "\x7bdir\x7d \x7bparent\x7d \x7bgrandparent\x7d \x7bbase\x7d"]).ended s
          "bad artifact template")
  | cannotCheck {path : String} {cause : Machine.OsError} {s : Setup}
      (hnote : noteOn ("Artifact lookup error: " ++ (Failure.cannotCheck path cause).message)
        e.setup = (.ok (), s)) :
      Reports e (.cannotCheck path cause)
        ((e.logged ["❌ Could not search for the compiled program: " ++
          (Failure.cannotCheck path cause).message]).ended s "lookup failed")

theorem Reports.runCompiled_eq {e e' : Engine} {failure : Failure} (h : Reports e failure e')
    (hsearch : e.search = .error failure) :
    runCompiled e.session.path e = (.ok none, e') := by
  unfold runCompiled
  rw [Action.bind_eq_of_ok (Action.get_apply e), locateWith_eq_search, hsearch]
  cases h with
  | badTemplate hnote =>
    refine Action.bind_eq_ok.2 ⟨(), _, ?_, rfl⟩
    unfold reportBadTemplate
    rw [say_bind, say_bind, logged_logged]
    exact note_finish_eq_ok.2 ⟨_, hnote, rfl⟩
  | cannotCheck hnote =>
    refine Action.bind_eq_ok.2 ⟨(), _, ?_, rfl⟩
    unfold reportCannotCheck
    rw [say_bind]
    exact note_finish_eq_ok.2 ⟨_, hnote, rfl⟩

/-- Where lines can be written to the log file, nothing stands in the way of a report. -/
theorem exists_reports {e : Engine} {failure : Failure} (hlog : LogOpen e.setup.machine)
    (h : failure.IsReport) : ∃ e', Reports e failure e' := by
  cases failure with
  | badTemplate template fault =>
    obtain ⟨s, hs, -⟩ := noteOn_of_logOpen
      ("Bad artifact template: " ++ (Failure.badTemplate template fault).message) hlog
    exact ⟨_, .badTemplate hs⟩
  | cannotCheck path cause =>
    obtain ⟨s, hs, -⟩ := noteOn_of_logOpen
      ("Artifact lookup error: " ++ (Failure.cannotCheck path cause).message) hlog
    exact ⟨_, .cannotCheck hs⟩
  | _ => exact absurd h id

/-- Any other failure ends the run, and nothing was said or written. -/
theorem runCompiled_of_not_isReport {e : Engine} {failure : Failure}
    (hsearch : e.search = .error failure) (h : ¬ failure.IsReport) :
    runCompiled e.session.path e = (.error failure, e) := by
  unfold runCompiled
  rw [Action.bind_eq_of_ok (Action.get_apply e), locateWith_eq_search, hsearch]
  cases failure with
  | badTemplate | cannotCheck => exact absurd trivial h
  | _ => rfl

/-! ## Runs -/

theorem run_of_compile {e compiled : Engine} (h : compile e = (.ok true, compiled)) :
    run e = runCompiled compiled.session.path compiled := by
  unfold run
  rw [Action.bind_eq_of_ok h, if_pos rfl, Action.bind_eq_of_ok (Action.get_apply compiled)]

/-- The failure of a search at the default places and at those that were configured is reported, or
the search breaks off and ends the run. -/
theorem run_of_fails {e compiled : Engine} {extras : List CodePoints} {failure : Failure}
    (hcompile : compile e = (.ok true, compiled))
    (hextras : templatesOf (e.setup.settings.value "artifact_candidates") =
      .ok (extras.map .text))
    (h : Fails compiled.setup.machine compiled.session.path (withDefaults extras) failure) :
    (∃ e', Reports compiled failure e' ∧ run e = (.ok none, e')) ∨
      Breaks compiled.setup.machine compiled.session.path (withDefaults extras) failure ∧
        run e = (.error failure, compiled) := by
  have hsearch : compiled.search = .error failure := by
    obtain ⟨first, hfirst⟩ := (compile_eq_ok.1 hcompile).attempts
    unfold search
    rw [hfirst.settings, Artifact.locateWith_eq hextras]
    exact h.locate_eq
  rw [run_of_compile hcompile]
  rcases h.isReport_or_breaks with hreport | hbreaks
  · obtain ⟨e', he'⟩ := exists_reports (logOpen_of_compile hcompile) hreport
    exact .inl ⟨e', he', he'.runCompiled_eq hsearch⟩
  · exact .inr ⟨hbreaks, runCompiled_of_not_isReport hsearch hbreaks.not_isReport⟩

/-- The engine whose compiler makes a program, and which also looks for it where a template says. -/
def lookingEngine (template : CodePoints) : Engine :=
  { buildingEngine with
    setup := { buildingEngine.setup with
      settings := { directory := Path.ofText "/home/user"
                    values := [("artifact_candidates", .list [.text template])] } } }

end Workbench.Engine
