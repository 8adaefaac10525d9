import Workbench.Engine.Probe
import Workbench.Proofs.Action
import Workbench.Proofs.Compiler.Launch
import Workbench.Proofs.Engine.Diagnostics
import Workbench.Proofs.Engine.Log
import Workbench.Proofs.Path

/-!
# What an engine launches

* `Engine.launched e` : the processes that were launched so far, in order;
* `Attempts s source first succeeded t` : a compilation launched nothing or the compiler once, and
  succeeded if that exited with code zero (`Compiles.attempts`);
* `Still a` : work that launches nothing and keeps the results of what was launched;
* `Finds e p` : the search for the program comes to the path `p`;
* `launches_of_run` : a run launches the compiler at most once, and then the program exactly if the
  compiler succeeded and the program was found. Without a compiler, no command launches anything.
-/

namespace Workbench

open Machine (Launch)

namespace Engine

def launched (e : Engine) : List Launch := e.setup.machine.launches

/-! ## Compilations -/

/-- The launch of the compiler for a source: with the words of its command, from the directory of
the source, when the compiler is there. What the log says may have changed by then. -/
def IsCompilerLaunch (s : Setup) (source : String) (l : Launch) : Prop :=
  ∃ t compiler words, Noted s t ∧ Compiler.resolve t = .ok compiler ∧
    t.machine.pathExists compiler.text = .ok true ∧ Compiler.command t source = .ok words ∧
    l = Compiler.compilerLaunch s.settings source words

theorem IsCompilerLaunch.of_noted {s t : Setup} {source : String} {l : Launch}
    (hl : IsCompilerLaunch t source l) (h : Noted s t) : IsCompilerLaunch s source l := by
  obtain ⟨u, compiler, words, hu, hcompiler, hfound, hwords, rfl⟩ := hl
  rw [h.settings]
  exact ⟨u, compiler, words, h.trans hu, hcompiler, hfound, hwords, rfl⟩

/-- A compilation launches nothing or the compiler once. It succeeds if the compiler exits with code
zero, and only then. -/
structure Attempts (s : Setup) (source : String) (first : Option Launch) (succeeded : Bool)
    (t : Setup) : Prop where
  settings : t.settings = s.settings
  launches : t.machine.launches = s.machine.launches ++ first.toList
  compiler : ∀ l, first = some l → IsCompilerLaunch s source l
  succeeded : succeeded = true ↔ first.isSome ∧ s.machine.nextEnding.IsSuccess

theorem Noted.attempts {s t : Setup} (h : Noted s t) (source : String) :
    Attempts s source none false t := by
  obtain ⟨d, -, rfl⟩ := h
  refine ⟨rfl, (List.append_nil _).symm, ?_, by simp⟩
  intro l hl
  exact nomatch hl

/-- What is in the log file before and after a compilation does not matter to what it launches. -/
theorem Attempts.noted {s s' t t' : Setup} {source : String} {first : Option Launch}
    {succeeded : Bool} (hbefore : Noted s s') (h : Attempts s' source first succeeded t)
    (hafter : Noted t t') : Attempts s source first succeeded t' := by
  have hcompiler : ∀ l, first = some l → IsCompilerLaunch s source l :=
    fun l hl => (h.compiler l hl).of_noted hbefore
  obtain ⟨d, -, rfl⟩ := hbefore
  obtain ⟨d', -, rfl⟩ := hafter
  exact ⟨h.settings, h.launches, hcompiler, h.succeeded⟩

theorem attempts_of_gives {s t : Setup} {source : String} {c : Compilation}
    (h : Compiler.Gives s source c t) : ∃ first, Attempts s source first c.succeeded t := by
  cases h with
  | missing hcompiler hfound => exact ⟨none, (Noted.refl s).attempts source⟩
  | @launched compiler words seconds c hcompiler hfound hwords hlets hc hseconds =>
    obtain ⟨-, hsucceeded⟩ := Compiler.succeeded_compilationOf hc
    refine ⟨some (Compiler.compilerLaunch s.settings source words), rfl, rfl, ?_, ?_⟩
    · intro l hl
      obtain rfl := Option.some.inj hl
      exact ⟨s, compiler, words, Noted.refl s, hcompiler, hfound, hwords, rfl⟩
    · simpa using hsucceeded

theorem Builds.attempts {s : Setup} {source : String} {b : Build} (h : Builds s source b) :
    ∃ first, Attempts s source first b.compilation.succeeded b.reported := by
  obtain ⟨first, hfirst⟩ := attempts_of_gives (Compiler.compile_eq_ok.1 h.compiled)
  exact ⟨first, hfirst.noted (noted_of_noteOn h.announced) (noted_of_noteOn h.reported)⟩

theorem Compiles.attempts {e e' : Engine} {r : Bool} (h : Compiles e r e') :
    ∃ first, Attempts e.setup e.session.path first r e'.setup := by
  cases h with
  | refused hsource => exact ⟨none, (Noted.refl e.setup).attempts _⟩
  | missing hp hfound hnote =>
    exact ⟨none, ((noted_of_reread hp.reread).trans (noted_of_noteOn hnote)).attempts _⟩
  | built hp hfound hb =>
    obtain ⟨first, hfirst⟩ := hb.attempts
    exact ⟨first, hfirst.noted (noted_of_reread hp.reread) (Noted.refl _)⟩

/-! ## Work that launches nothing -/

/-- Nothing was launched, and the results of what was launched are as they were. -/
structure Stays (e e' : Engine) : Prop where
  launched : e'.launched = e.launched
  execution : e'.session.lastExecution = e.session.lastExecution
  lookup : e'.session.lastLookup = e.session.lastLookup

theorem Stays.refl (e : Engine) : Stays e e := ⟨rfl, rfl, rfl⟩

theorem Stays.trans {e₁ e₂ e₃ : Engine} (h : Stays e₁ e₂) (h' : Stays e₂ e₃) : Stays e₁ e₃ :=
  ⟨h'.launched.trans h.launched, h'.execution.trans h.execution, h'.lookup.trans h.lookup⟩

/-- Work that launches nothing, even where it fails. -/
def Still {α : Type} (a : Action Engine α) : Prop := Action.Ensures Stays a

section Still
variable {α β : Type}

theorem still_pure (x : α) : Still (pure x) := Stays.refl

theorem still_throw (failure : Failure) : Still (throw failure : Action Engine α) := Stays.refl

theorem still_get : Still (get : Action Engine Engine) := Stays.refl

theorem still_askSetup (f : Setup → Except Failure α) : Still (askSetup f) := Stays.refl

theorem Still.bind {a : Action Engine α} {f : α → Action Engine β} (ha : Still a)
    (hf : ∀ x, Still (f x)) : Still (a >>= f) := Action.Ensures.bind Stays.trans ha hf

theorem still_change {f : Session → Session}
    (hexecution : ∀ s, (f s).lastExecution = s.lastExecution)
    (hlookup : ∀ s, (f s).lastLookup = s.lastLookup) : Still (change f) :=
  fun e => ⟨rfl, hexecution e.session, hlookup e.session⟩

theorem still_say (text : String) : Still (say text) := fun _ => ⟨rfl, rfl, rfl⟩

theorem still_sayAll (texts : List String) : Still (sayAll texts) := by
  intro e
  rw [sayAll_apply, Session.foldl_say]
  exact ⟨rfl, rfl, rfl⟩

theorem still_setStatus (status : String) : Still (setStatus status) := fun _ => ⟨rfl, rfl, rfl⟩

theorem still_note (text : String) : Still (note text) := by
  intro e
  obtain ⟨d, -, hd⟩ := noted_noteOn text e.setup
  have hnote : (note text e).2 = { e with setup := e.setup.withDisk d } :=
    congrArg (fun s => { e with setup := s }) hd
  rw [hnote]
  exact ⟨rfl, rfl, rfl⟩

theorem still_publish : Still publish := fun _ => ⟨rfl, rfl, rfl⟩

theorem still_finish (status : String) : Still (finish status) := fun _ => ⟨rfl, rfl, rfl⟩

theorem still_refuse : Still refuse := fun _ => ⟨rfl, rfl, rfl⟩

theorem still_reload : Still reload := by
  refine still_get.bind fun e => ?_
  split
  · exact still_change (fun _ => rfl) (fun _ => rfl)
  · exact still_note _
  · exact still_throw _

theorem still_reportMissing (compiler : Path) : Still (reportMissing compiler) :=
  (still_say _).bind fun _ => (still_setStatus _).bind fun _ => (still_note _).bind fun _ =>
    still_publish

theorem still_reportExecution (program : Path) (x : Execution) :
    Still (reportExecution program x) :=
  (still_sayAll _).bind fun _ => (still_setStatus _).bind fun _ => (still_sayAll _).bind fun _ =>
    (still_note _).bind fun _ => still_publish

theorem still_reportCannotCheck (failure : Failure) : Still (reportCannotCheck failure) :=
  (still_say _).bind fun _ => (still_note _).bind fun _ => still_finish _

theorem still_reportBadTemplate (failure : Failure) : Still (reportBadTemplate failure) :=
  (still_say _).bind fun _ => (still_say _).bind fun _ => (still_note _).bind fun _ =>
    still_finish _

theorem still_reportNotFound (l : Artifact.Lookup) : Still (reportNotFound l) :=
  (still_say _).bind fun _ => (still_sayAll _).bind fun _ => (still_say _).bind fun _ =>
    (still_note _).bind fun _ => still_finish _

end Still

/-! ## Runs -/

/-- The search for the program of a source, at the default places and at the configured ones. -/
def search (e : Engine) : Except Failure Artifact.Lookup :=
  Artifact.locateWith e.setup.machine e.session.path
    (e.setup.settings.value "artifact_candidates")

theorem locateWith_eq_search (e : Engine) :
    Artifact.locateWith e.setup.machine e.session.path
      (e.setup.settings.value "artifact_candidates") = e.search := rfl

/-- The search for the program comes to this path. -/
def Finds (e : Engine) (program : Path) : Prop :=
  ∃ l, e.search = .ok l ∧ l.path = some program

theorem Finds.unique {e : Engine} {p q : Path} (hp : Finds e p) (hq : Finds e q) : p = q := by
  obtain ⟨l, hl, hp⟩ := hp
  obtain ⟨l', hl', hq⟩ := hq
  obtain rfl := Except.ok.inj (hl.symm.trans hl')
  exact Option.some.inj (hp.symm.trans hq)

/-- The launch of a program from the directory of the source. -/
def programLaunch (e : Engine) (program : Path) : Launch :=
  Compiler.programLaunch e.setup.settings program (Path.ofText e.session.path).parent.text

/-- The program was found and launched, and this is what came of it. -/
structure Executes (e : Engine) (program : Path) (x : Execution) (e' : Engine) : Prop where
  finds : Finds e program
  launched : e'.launched = e.launched ++ [e.programLaunch program]
  execution : e'.session.lastExecution = some x
  lookup : ∃ l, e'.session.lastLookup = some l ∧ l.path = some program
  succeeded : x.failed = false ↔ e.setup.machine.nextEnding.IsSuccess

theorem launched_of_execute {source : String} {program : Path} {e e' : Engine} {x : Execution}
    (h : execute source program e = (.ok x, e')) :
    e'.launched = e.launched ++ [Compiler.programLaunch e.setup.settings program
        (Path.ofText source).parent.text] ∧
      e'.session.lastExecution = some x ∧ e'.session.lastLookup = e.session.lastLookup ∧
      (x.failed = false ↔ e.setup.machine.nextEnding.IsSuccess) := by
  have hdirectory : (Path.ofText source).parent.text ≠ "" :=
    Path.text_ne_empty (Path.isName_parent (Path.isName_ofText source))
  unfold execute at h
  obtain ⟨_, e₁, hheading, h⟩ := Action.bind_eq_ok.1 h
  obtain ⟨y, e₂, hexecute, h⟩ := Action.bind_eq_ok.1 h
  rw [Action.bind_eq_of_ok (change_apply _ e₂)] at h
  obtain ⟨_, e₃, hreport, h⟩ := Action.bind_eq_ok.1 h
  obtain ⟨hx, rfl⟩ := Prod.mk.inj h
  obtain rfl := Except.ok.inj hx
  rw [sayAll_apply, Session.foldl_say] at hheading
  obtain ⟨-, rfl⟩ := Prod.mk.inj hheading
  obtain ⟨t, ht, rfl⟩ := onSetup_eq_ok.1 hexecute
  obtain ⟨rfl, hx⟩ := Compiler.execute_eq_ok hdirectory ht
  have hstays := still_reportExecution program y { e with
    setup := e.setup.afterLaunch (Compiler.programLaunch e.setup.settings program
      (Path.ofText source).parent.text)
    session := { e.session with
      output := e.session.output ++ OutputLog.linesOf (programHeading program)
      lastExecution := some y } }
  rw [hreport] at hstays
  exact ⟨hstays.launched, hstays.execution, hstays.lookup, Compiler.failed_executionOf hx⟩

theorem not_finds_of_error {e : Engine} {failure : Failure} (h : e.search = .error failure)
    (p : Path) : ¬ Finds e p := by
  rintro ⟨l, hl, -⟩
  rw [h] at hl
  exact nomatch hl

theorem not_finds_of_path {e : Engine} {l : Artifact.Lookup} (h : e.search = .ok l)
    (hpath : l.path = none) (p : Path) : ¬ Finds e p := by
  rintro ⟨l', hl', hp⟩
  obtain rfl := Except.ok.inj (h.symm.trans hl')
  rw [hpath] at hp
  exact nomatch hp

theorem Still.reported {report : Action Engine Unit} {e e' : Engine} {x : Option Execution}
    (hstill : Still report)
    (h : (report >>= fun _ => (pure none : Action Engine (Option Execution))) e = (.ok x, e')) :
    x = none ∧ Stays e e' := by
  obtain ⟨_, t, hreport, hpure⟩ := Action.bind_eq_ok.1 h
  obtain ⟨hx, rfl⟩ := Prod.mk.inj hpure
  have hstays := hstill e
  rw [hreport] at hstays
  exact ⟨(Except.ok.inj hx).symm, hstays⟩

/-- After a compilation that succeeded, the program is executed or it was not found. -/
theorem runCompiled_eq_ok {e e' : Engine} {x : Option Execution}
    (h : runCompiled e.session.path e = (.ok x, e')) :
    (x = none ∧ (∀ p, ¬ Finds e p) ∧ e'.launched = e.launched ∧
        e'.session.lastExecution = e.session.lastExecution) ∨
      ∃ p y, x = some y ∧ Executes e p y e' := by
  unfold runCompiled at h
  rw [Action.bind_eq_of_ok (Action.get_apply e), locateWith_eq_search] at h
  cases hr : e.search with
  | error failure =>
    have hnone := not_finds_of_error hr
    rw [hr] at h
    -- These two failures are reported, and any other one escapes.
    cases failure with
    | cannotCheck path cause =>
      obtain ⟨hx, hstays⟩ := (still_reportCannotCheck _).reported h
      exact Or.inl ⟨hx, hnone, hstays.launched, hstays.execution⟩
    | badTemplate template fault =>
      obtain ⟨hx, hstays⟩ := (still_reportBadTemplate _).reported h
      exact Or.inl ⟨hx, hnone, hstays.launched, hstays.execution⟩
    | _ => exact absurd (congrArg Prod.fst h) (by simp)
  | ok l =>
    rw [hr] at h
    dsimp only at h
    rw [Action.bind_eq_of_ok (change_apply _ e)] at h
    cases hpath : l.path with
    | none =>
      rw [hpath] at h
      obtain ⟨hx, hstays⟩ := (still_reportNotFound l).reported h
      exact Or.inl ⟨hx, not_finds_of_path hr hpath, hstays.launched, hstays.execution⟩
    | some program =>
      rw [hpath] at h
      obtain ⟨y, t, hexecute, hpure⟩ := Action.bind_eq_ok.1 h
      obtain ⟨hx, rfl⟩ := Prod.mk.inj hpure
      obtain ⟨hlaunched, hexecution, hlookup, hsucceeded⟩ := launched_of_execute hexecute
      refine Or.inr ⟨program, y, (Except.ok.inj hx).symm, ⟨l, hr, hpath⟩, hlaunched, hexecution,
        ⟨l, hlookup, hpath⟩, hsucceeded⟩

/-- A run launches at most the compiler and then the program. In between, when the program is looked
for, the engine is `compiled`. -/
structure RunLaunches (e : Engine) (x : Option Execution) (e' compiled : Engine)
    (first second : Option Launch) : Prop where
  first_launched : compiled.launched = e.launched ++ first.toList
  both_launched : e'.launched = e.launched ++ first.toList ++ second.toList
  compiler : ∀ l, first = some l → IsCompilerLaunch e.setup e.session.path l
  program : ∀ l, second = some l ↔ first.isSome ∧ e.setup.machine.nextEnding.IsSuccess ∧
    ∃ p, Finds compiled p ∧ l = e.programLaunch p
  result : x.isSome ↔ second.isSome
  execution : ∀ y, x = some y → e'.session.lastExecution = some y ∧
    ∃ l p, e'.session.lastLookup = some l ∧ l.path = some p ∧ second = some (e.programLaunch p)
  no_execution : x = none → e'.session.lastExecution = e.session.lastExecution

theorem Compiles.session {e e' : Engine} {r : Bool} (h : Compiles e r e') :
    e'.session.path = e.session.path ∧ e'.session.lastExecution = e.session.lastExecution := by
  have hreread : ∀ code, (e.session.reread code).path = e.session.path ∧
      (e.session.reread code).lastExecution = e.session.lastExecution := by
    intro code
    cases code <;> exact ⟨rfl, rfl⟩
  cases h with
  | refused hsource => exact ⟨rfl, rfl⟩
  | @missing p s hp hfound hnote => exact hreread p.code
  | @built p b hp hfound hb => exact hreread p.code

theorem runLaunches_of_nothing {e e' compiled : Engine} {r : Bool} {first : Option Launch}
    (hfirst : Attempts e.setup e.session.path first r compiled.setup)
    (hlaunched : e'.launched = compiled.launched)
    (hexecution : e'.session.lastExecution = e.session.lastExecution)
    (hnone : r = true → ∀ p, ¬ Finds compiled p) :
    RunLaunches e none e' compiled first none where
  first_launched := hfirst.launches
  both_launched := by
    rw [Option.toList_none, List.append_nil, hlaunched]
    exact hfirst.launches
  compiler := hfirst.compiler
  program := by
    intro l
    constructor
    · intro hl
      exact nomatch hl
    · rintro ⟨hsome, hsuccess, p, hp, -⟩
      exact absurd hp (hnone (hfirst.succeeded.2 ⟨hsome, hsuccess⟩) p)
  result := by simp
  execution := fun _ hy => nomatch hy
  no_execution := fun _ => hexecution

/-- A compilation does not change how a program is launched. -/
theorem Attempts.programLaunch_eq {e compiled : Engine} {first : Option Launch} {r : Bool}
    (h : Attempts e.setup e.session.path first r compiled.setup)
    (hpath : compiled.session.path = e.session.path) (p : Path) :
    compiled.programLaunch p = e.programLaunch p := by
  unfold programLaunch
  rw [h.settings, hpath]

theorem runLaunches_of_executes {e e' compiled : Engine} {first : Option Launch} {p : Path}
    {y : Execution} (hfirst : Attempts e.setup e.session.path first true compiled.setup)
    (hpath : compiled.session.path = e.session.path) (h : Executes compiled p y e') :
    RunLaunches e (some y) e' compiled first (some (e.programLaunch p)) where
  first_launched := hfirst.launches
  both_launched := by
    rw [h.launched, hfirst.programLaunch_eq hpath]
    exact congrArg (· ++ _) hfirst.launches
  compiler := hfirst.compiler
  program := by
    obtain ⟨hsome, hsuccess⟩ := hfirst.succeeded.1 rfl
    intro l
    constructor
    · intro hl
      exact ⟨hsome, hsuccess, p, h.finds, (Option.some.inj hl).symm⟩
    · rintro ⟨-, -, q, hq, rfl⟩
      rw [h.finds.unique hq]
  result := by simp
  execution := by
    intro z hz
    obtain rfl := Option.some.inj hz
    obtain ⟨l, hlookup, hfound⟩ := h.lookup
    exact ⟨h.execution, l, p, hlookup, hfound, rfl⟩
  no_execution := fun hx => nomatch hx

theorem runLaunches_of_run {e e' : Engine} {x : Option Execution} (h : run e = (.ok x, e')) :
    ∃ r compiled first second, compile e = (.ok r, compiled) ∧
      RunLaunches e x e' compiled first second := by
  obtain ⟨r, compiled, hcompile, h⟩ := Action.bind_eq_ok.1 h
  have hcompiles := compile_eq_ok.1 hcompile
  obtain ⟨first, hfirst⟩ := hcompiles.attempts
  obtain ⟨hpath, hexecution⟩ := hcompiles.session
  cases r with
  | false =>
    obtain ⟨hx, rfl⟩ := Prod.mk.inj h
    obtain rfl := Except.ok.inj hx
    exact ⟨false, compiled, first, none, hcompile,
      runLaunches_of_nothing hfirst rfl hexecution fun hr => nomatch hr⟩
  | true =>
    rw [if_pos rfl, Action.bind_eq_of_ok (Action.get_apply compiled)] at h
    rcases runCompiled_eq_ok h with ⟨rfl, hnone, hlaunched, hkept⟩ | ⟨p, y, rfl, hexecutes⟩
    · exact ⟨true, compiled, first, none, hcompile,
        runLaunches_of_nothing hfirst hlaunched (hkept.trans hexecution) fun _ => hnone⟩
    · exact ⟨true, compiled, first, some (e.programLaunch p), hcompile,
        runLaunches_of_executes hfirst hpath hexecutes⟩

/-! ## Without a compiler -/

theorem Compiles.invokes {e e' : Engine} {r : Bool} (h : Compiles e r e') (hr : r = true) :
    Invokes e.setup e.session.path := by
  cases h with
  | refused hsource => exact Bool.noConfusion hr
  | missing hp hfound hnote => exact Bool.noConfusion hr
  | @built p b hp hfound hb => exact ⟨p, hp, hfound⟩

theorem stays_of_compile {e : Engine} (h : ¬ Invokes e.setup e.session.path) :
    Stays e (compile e).2 := by
  unfold compile
  rw [Action.bind_eq_of_ok (Action.get_apply e)]
  by_cases hsource : isSource e.session.path = true
  · rw [if_pos hsource]
    refine Action.bind_ensures Stays.trans (still_reload e) fun _ e₁ hreload => ?_
    obtain ⟨code, s, hreread, rfl⟩ := reload_eq_ok.1 hreload
    refine Action.bind_ensures Stays.trans (still_askSetup _ _) fun compiler e₂ hresolve => ?_
    obtain ⟨hcompiler, rfl⟩ := Prod.mk.inj hresolve
    refine Action.bind_ensures Stays.trans (still_askSetup _ _) fun found e₃ hexists => ?_
    obtain ⟨hfound, rfl⟩ := Prod.mk.inj hexists
    cases found with
    | true => exact absurd ⟨⟨code, s, compiler, true⟩, ⟨hsource, hreread, hcompiler, hfound⟩, rfl⟩ h
    | false =>
      rw [if_neg Bool.false_ne_true]
      exact ((still_reportMissing compiler).bind fun _ => still_pure false) _
  · rw [if_neg hsource]
    exact (still_refuse.bind fun _ => still_pure false) e

theorem stays_of_check {e : Engine} (h : ¬ Invokes e.setup e.session.path) :
    Stays e (check e).2 := by
  unfold check
  rw [Action.bind_eq_of_ok (Action.get_apply e)]
  by_cases hsource : isSource e.session.path = true
  · rw [if_pos hsource]
    refine Action.bind_ensures Stays.trans (still_say _ e) fun _ e₁ hsay => ?_
    rw [say_apply] at hsay
    obtain ⟨-, rfl⟩ := Prod.mk.inj hsay
    exact stays_of_compile h
  · rw [if_neg hsource]
    exact (still_refuse.bind fun _ => still_pure false) e

theorem stays_of_run {e : Engine} (h : ¬ Invokes e.setup e.session.path) : Stays e (run e).2 := by
  refine Action.bind_ensures Stays.trans (stays_of_compile h) fun r e₁ hcompile => ?_
  cases r with
  | false => exact Stays.refl e₁
  | true => exact absurd ((compile_eq_ok.1 hcompile).invokes rfl) h

/-- A probe looks for the compiler before anything else. -/
theorem stays_of_probe {e : Engine} (h : isSource e.session.path = false ∨
    ∃ compiler, Compiler.resolve e.setup = .ok compiler ∧
      e.setup.machine.pathExists compiler.text = .ok false) : Stays e (probe e).2 := by
  unfold probe
  rw [Action.bind_eq_of_ok (Action.get_apply e)]
  by_cases hsource : isSource e.session.path = true
  · obtain ⟨compiler, hcompiler, hfound⟩ := h.resolve_left (by simp [hsource])
    have hresolve : askSetup Compiler.resolve e = (.ok compiler, e) := Prod.ext hcompiler rfl
    rw [if_pos hsource, Action.bind_eq_of_ok hresolve]
    refine Action.bind_ensures Stays.trans ⟨rfl, rfl, rfl⟩ fun _ e₁ hcleared => ?_
    refine Action.bind_ensures Stays.trans (still_sayAll _ e₁) fun _ e₂ hheading => ?_
    rw [change_apply] at hcleared
    obtain ⟨-, rfl⟩ := Prod.mk.inj hcleared
    rw [sayAll_apply, Session.foldl_say] at hheading
    obtain ⟨-, rfl⟩ := Prod.mk.inj hheading
    refine Action.bind_ensures Stays.trans (still_askSetup _ _) fun found e₃ hexists => ?_
    obtain ⟨hfound', rfl⟩ := Prod.mk.inj hexists
    obtain rfl := Except.ok.inj (hfound'.symm.trans hfound)
    rw [if_neg Bool.false_ne_true]
    exact ((still_say _).bind fun _ => (still_finish _).bind fun _ => still_pure false) _
  · rw [if_neg hsource]
    exact (still_refuse.bind fun _ => still_pure false) e

/-! ## All commands -/

/-- A run launches at most two processes: the compiler, and then the program, if and only if the
compiler exited with code zero and the program was found. It has a result if and only if the program
was launched. A command that is refused or finds no compiler launches nothing. -/
theorem launches_of_run :
    (∀ (e e' : Engine) (x : Option Execution), run e = (.ok x, e') →
      ∃ r compiled first second, compile e = (.ok r, compiled) ∧
        RunLaunches e x e' compiled first second) ∧
    (∀ e : Engine, ¬ Invokes e.setup e.session.path →
      (compile e).2.launched = e.launched ∧ (check e).2.launched = e.launched ∧
        (run e).2.launched = e.launched) ∧
    (∀ e : Engine, (isSource e.session.path = false ∨
        ∃ compiler, Compiler.resolve e.setup = .ok compiler ∧
          e.setup.machine.pathExists compiler.text = .ok false) →
      (probe e).2.launched = e.launched) := by
  refine ⟨fun e e' x h => runLaunches_of_run h, fun e h => ?_, fun e h => ?_⟩
  · exact ⟨(stays_of_compile h).launched, (stays_of_check h).launched, (stays_of_run h).launched⟩
  · exact (stays_of_probe h).launched

/-- An engine whose compiler makes a program, which then ends with the exit code 3. -/
def buildingEngine : Engine where
  setup :=
    { machine :=
        { disk := [(["tmp"], .directory), (["w"], .directory), (["opt"], .directory),
            (["opt", "cplebolt"], .directory), (["opt", "cplebolt", "bin"], .directory),
            (["opt", "cplebolt", "bin", "cple.out"], .file (.bytes []))]
          outcomes := [{ files := [(["w", "a.exe"], .bytes [])] }, { ending := .exited 3 "" "" }] }
      settings := { directory := Path.ofText "/home/user", values := [] } }
  session := { path := "/w/a.cple" }

/-- The same engine with a file that is no source. -/
def idleEngine : Engine := { buildingEngine with session := { path := "/w/a.txt" } }

theorem launches_of_buildingEngine :
    (∃ y e' compiled first second, run buildingEngine = (.ok (some y), e') ∧
      RunLaunches buildingEngine (some y) e' compiled (some first) (some second) ∧
      y.exitCode = some 3 ∧
      e'.launched.map Launch.command =
        ([["/opt/cplebolt/bin/cple.out", "/w/a.cple"], ["/w/a.exe"]] :
          List (List Text.CodePoints))) ∧
    (run idleEngine).2.launched = [] ∧ (probe idleEngine).2.launched = [] := by
  have hidle : isSource idleEngine.session.path = false := by decide +kernel
  refine ⟨?_, (launches_of_run.2.1 idleEngine (not_invokes_of_not_isSource hidle)).2.2,
    launches_of_run.2.2 idleEngine (Or.inl hidle)⟩
  have hcode : (run buildingEngine).1.toOption.join.bind Execution.exitCode = some 3 := by
    decide +kernel
  have hcommands : (run buildingEngine).2.launched.map Launch.command =
      ([["/opt/cplebolt/bin/cple.out", "/w/a.cple"], ["/w/a.exe"]] :
        List (List Text.CodePoints)) := by decide +kernel
  obtain ⟨y, hy, hthree⟩ := Option.bind_eq_some_iff.1 hcode
  have hrun : run buildingEngine = (.ok (some y), (run buildingEngine).2) :=
    Action.eq_of_toOption (Option.join_eq_some_iff.1 hy)
  obtain ⟨r, compiled, first, second, -, h⟩ := launches_of_run.1 _ _ _ hrun
  obtain ⟨program, hprogram⟩ := Option.isSome_iff_exists.1 (h.result.1 rfl)
  obtain ⟨compiler, hcompiler⟩ := Option.isSome_iff_exists.1 ((h.program program).1 hprogram).1
  rw [hprogram, hcompiler] at h
  exact ⟨y, _, compiled, compiler, program, hrun, h, hthree, hcommands⟩

end Engine

end Workbench
