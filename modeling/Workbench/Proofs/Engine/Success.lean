import Workbench.Proofs.Engine.Launches
import Workbench.Proofs.Engine.Probe

/-!
# When a command succeeds

The answer of a command that comes to an end says what its processes did, and nothing of what the
engine held before gets into it:

* `BuildsWell e l e'` : the compiler was launched and exited with code zero
  (`compile_succeeds_iff`, `check_succeeds_iff`);
* `RunsWell e e'` : and then the program that was found was and did (`run_succeeds_iff`);
* `ProbesWell e e'` : the compiler did, and the directory of the source could be listed before and
  after (`probe_succeeds_iff`).
-/

namespace Workbench.Engine

open Machine (Launch)

/-! ## Compilations -/

/-- The compiler was launched for the source, and nothing else was. It exited with code zero. -/
structure BuildsWell (e : Engine) (l : Launch) (e' : Engine) : Prop where
  compiler : IsCompilerLaunch e.setup e.session.path l
  launched : e'.launched = e.launched ++ [l]
  success : e.setup.machine.nextEnding.IsSuccess

theorem Attempts.succeeds_iff {e e' : Engine} {first : Option Launch} {r : Bool}
    (h : Attempts e.setup e.session.path first r e'.setup) :
    r = true ↔ ∃ l, BuildsWell e l e' := by
  rw [h.succeeded]
  constructor
  · rintro ⟨hsome, hsuccess⟩
    obtain ⟨l, rfl⟩ := Option.isSome_iff_exists.1 hsome
    exact ⟨l, h.compiler l rfl, h.launches, hsuccess⟩
  · rintro ⟨l, hcompiler, hlaunched, hsuccess⟩
    have hfirst : e.launched ++ first.toList = e.launched ++ [l] := h.launches.symm.trans hlaunched
    have hone : first.toList = [l] := List.append_cancel_left hfirst
    cases first with
    | none => exact nomatch hone
    | some l => exact ⟨rfl, hsuccess⟩

theorem compile_succeeds_iff {e e' : Engine} {r : Bool} (h : compile e = (.ok r, e')) :
    r = true ↔ ∃ l, BuildsWell e l e' := by
  obtain ⟨first, hfirst⟩ := (compile_eq_ok.1 h).attempts
  exact hfirst.succeeds_iff

theorem check_succeeds_iff {e e' : Engine} {r : Bool} (h : check e = (.ok r, e')) :
    r = true ↔ ∃ l, BuildsWell e l e' := by
  unfold check at h
  rw [Action.bind_eq_of_ok (Action.get_apply e)] at h
  by_cases hsource : isSource e.session.path = true
  · rw [if_pos hsource, say_bind] at h
    obtain ⟨first, hfirst⟩ := (compile_eq_ok.1 h).attempts
    have hsame : Attempts e.setup e.session.path first r e'.setup := hfirst
    exact hsame.succeeds_iff
  · rw [if_neg hsource, Action.bind_eq_of_ok (refuse_apply e)] at h
    obtain ⟨hr, rfl⟩ := Prod.mk.inj h
    obtain rfl := Except.ok.inj hr
    have hnothing : Attempts e.setup e.session.path none false e.refused.setup :=
      (Noted.refl e.setup).attempts e.session.path
    exact hnothing.succeeds_iff

/-! ## Runs -/

/-- The compiler was launched and then the program that was found, and nothing else was. Both exited
with code zero. -/
inductive RunsWell (e e' : Engine) : Prop
  | intro {compiled : Engine} {first : Launch} {program : Path}
      (hcompile : compile e = (.ok true, compiled)) (hbuilds : BuildsWell e first compiled)
      (hfinds : Finds compiled program)
      (hlaunched : e'.launched = e.launched ++ [first, e.programLaunch program])
      (hsuccess : compiled.setup.machine.nextEnding.IsSuccess)

/-- It is the execution of this run that is asked, not one that came before. -/
theorem run_succeeds_iff {e e' : Engine} {x : Option Execution} (h : run e = (.ok x, e')) :
    (x.isSome && e'.session.lastExecution.any fun y => !y.failed) = true ↔ RunsWell e e' := by
  obtain ⟨r, compiled, hcompile, h⟩ := Action.bind_eq_ok.1 h
  have hcompiles := compile_eq_ok.1 hcompile
  obtain ⟨first, hfirst⟩ := hcompiles.attempts
  have hunique : ∀ {compiled'}, compile e = (.ok true, compiled') →
      r = true ∧ compiled' = compiled := by
    intro compiled' h'
    obtain ⟨hr, rfl⟩ := Prod.mk.inj (hcompile.symm.trans h')
    exact ⟨Except.ok.inj hr, rfl⟩
  cases r with
  | false =>
    obtain ⟨hx, rfl⟩ := Prod.mk.inj h
    obtain rfl := Except.ok.inj hx
    refine iff_of_false Bool.false_ne_true ?_
    rintro ⟨hcompile', -, -, -, -⟩
    exact nomatch (hunique hcompile').1
  | true =>
    rw [if_pos rfl, Action.bind_eq_of_ok (Action.get_apply compiled)] at h
    rcases runCompiled_eq_ok h with ⟨rfl, hnone, -, -⟩ | ⟨p, y, rfl, hexecutes⟩
    · refine iff_of_false Bool.false_ne_true ?_
      rintro ⟨hcompile', -, hfinds, -, -⟩
      obtain ⟨-, rfl⟩ := hunique hcompile'
      exact absurd hfinds (hnone _)
    · rw [hexecutes.execution]
      simp only [Option.isSome_some, Bool.true_and, Option.any_some, Bool.not_eq_true']
      rw [hexecutes.succeeded]
      constructor
      · intro hsuccess
        obtain ⟨l, hl⟩ := hfirst.succeeds_iff.1 rfl
        refine ⟨hcompile, hl, hexecutes.finds, ?_, hsuccess⟩
        rw [hexecutes.launched, hfirst.programLaunch_eq hcompiles.session.1, hl.launched,
          List.append_assoc]
        rfl
      · rintro ⟨hcompile', -, -, -, hsuccess⟩
        obtain ⟨-, rfl⟩ := hunique hcompile'
        exact hsuccess

/-! ## Probes -/

/-- The compiler was launched, and nothing else was. It exited with code zero, and the directory of
the source could be listed before and after. -/
inductive ProbesWell (e e' : Engine) : Prop
  | intro {l : Launch} {before after : Listing} {c : Compilation} {t : Setup}
      (hbuilds : BuildsWell e l e')
      (hbefore : Listing.of e.setup.machine (directoryOf e.session.path) = .ok before)
      (hcompile : Compiler.compile e.session.path e.setup = (.ok c, t))
      (hafter : Listing.of t.machine (directoryOf e.session.path) = .ok after)

theorem BuildsWell.not_stays {e e' : Engine} {l : Launch} (h : BuildsWell e l e') :
    e'.launched ≠ e.launched := by
  rw [h.launched]
  simp

/-- A comparison succeeds if its compilation does and the second listing can be had. -/
theorem Compares.attempts {source directory : String} {before : Listing} {e e' : Engine} {r : Bool}
    (h : Compares source directory before e r e') :
    ∃ c t first, Compiler.compile source e.setup = (.ok c, t) ∧
      Attempts e.setup source first c.succeeded e'.setup ∧
      (r = true ↔ c.succeeded = true ∧ ∃ after, Listing.of t.machine directory = .ok after) := by
  cases h with
  | unlisted hwords hcompile hlist hnote =>
    obtain ⟨first, hfirst⟩ := attempts_of_gives (Compiler.compile_eq_ok.1 hcompile)
    refine ⟨_, _, first, hcompile,
      Attempts.noted (Noted.refl e.setup) hfirst (noted_of_noteOn hnote),
      iff_of_false Bool.false_ne_true ?_⟩
    rintro ⟨-, after, hafter⟩
    exact nomatch hlist.symm.trans hafter
  | listed hwords hcompile hlist hnote =>
    obtain ⟨first, hfirst⟩ := attempts_of_gives (Compiler.compile_eq_ok.1 hcompile)
    exact ⟨_, _, first, hcompile,
      Attempts.noted (Noted.refl e.setup) hfirst (noted_of_noteOn hnote),
      fun hr => ⟨hr, _, hlist⟩, fun hr => hr.1⟩

theorem probe_succeeds_iff {e e' : Engine} {r : Bool} (h : probe e = (.ok r, e')) :
    r = true ↔ ProbesWell e e' := by
  cases probe_eq_ok.1 h with
  | refused hsource =>
    refine iff_of_false Bool.false_ne_true ?_
    rintro ⟨hbuilds, -, -, -⟩
    exact absurd rfl hbuilds.not_stays
  | missing hopens =>
    refine iff_of_false Bool.false_ne_true ?_
    rintro ⟨hbuilds, -, -, -⟩
    exact absurd rfl hbuilds.not_stays
  | unlisted hopens hlist hnote =>
    refine iff_of_false Bool.false_ne_true ?_
    rintro ⟨-, hbefore, -, -⟩
    exact nomatch hlist.symm.trans hbefore
  | compared hopens hlist hcompare =>
    obtain ⟨c, t, first, hcompile, hfirst, hr⟩ := hcompare.attempts
    have hbuilt : c.succeeded = true ↔ ∃ l, BuildsWell e l e' := Attempts.succeeds_iff hfirst
    rw [hr, hbuilt]
    constructor
    · rintro ⟨⟨l, hl⟩, after, hafter⟩
      exact ⟨hl, hlist, hcompile, hafter⟩
    · rintro ⟨hbuilds, -, hcompile', hafter⟩
      obtain ⟨-, rfl⟩ := Prod.mk.inj (hcompile.symm.trans hcompile')
      exact ⟨⟨_, hbuilds⟩, _, hafter⟩

end Workbench.Engine
