import Workbench.Proofs.Engine.Diagnostics
import Workbench.Proofs.Engine.Probe

/-!
# Diagnostics and the last compilation

A command files what its compilation finds. A probe compiles as well, but files nothing, so that the
diagnostics of its source may be those of an earlier compilation.

* `Task` : the commands, and the probe;
* `Lists s source c` : the probe gets as far as the compilation, which amounts to `c`;
* `Mark`, `Marks` : the compilation that a task comes to, and whether it was filed;
* `Follows e marks e'` : tasks one after the other, with the marks that they leave;
* `diagnostics_of_marks` : the last mark is the last compilation, the last one that was filed has the
  diagnostics. They agree unless probes came after it and the last one of them found something else.
-/

namespace Workbench.Engine

/-! ## Probes -/

/-- The probe finds the compiler and can list the directory of the source, and the compilation comes
to this. -/
structure Lists (s : Setup) (source : String) (c : Compilation) : Prop where
  isSource : isSource source = true
  compiler : ∃ compiler, Compiler.resolve s = .ok compiler ∧
    s.machine.pathExists compiler.text = .ok true
  listing : ∃ before, Listing.of s.machine (Path.ofText source).parent.text = .ok before
  compilation : ∃ t, Compiler.compile source s = (.ok c, t)

theorem Lists.unique {s : Setup} {source : String} {c d : Compilation} (hc : Lists s source c)
    (hd : Lists s source d) : c = d := by
  obtain ⟨t, ht⟩ := hc.compilation
  obtain ⟨u, hu⟩ := hd.compilation
  exact Except.ok.inj (Prod.mk.inj (ht.symm.trans hu)).1

/-- A comparison makes its compilation the last one, and changes nothing else about diagnostics. -/
theorem Compares.keeps {source directory : String} {before : Listing} {e e' : Engine} {r : Bool}
    (h : Compares source directory before e r e') :
    ∃ c t, Compiler.compile source e.setup = (.ok c, t) ∧ Keeps (e.remember c) e' := by
  cases h with
  | unlisted hwords hcompile hlist hnote => exact ⟨_, _, hcompile, rfl, rfl, rfl⟩
  | listed hwords hcompile hlist hnote => exact ⟨_, _, hcompile, rfl, rfl, rfl⟩

/-- A probe leaves the diagnostics alone. If it gets as far, its compilation is the last one. -/
theorem Probes.keeps {e e' : Engine} {r : Bool} (h : Probes e r e') :
    (∃ c, Lists e.setup e.session.path c ∧ Keeps (e.remember c) e') ∨
      (∀ c, ¬ Lists e.setup e.session.path c) ∧ Keeps e e' := by
  cases h with
  | refused hsource =>
    exact .inr ⟨fun c hc => Bool.eq_false_iff.1 hsource hc.isSource, rfl, rfl, rfl⟩
  | missing hopens =>
    refine .inr ⟨fun c hc => ?_, rfl, rfl, rfl⟩
    obtain ⟨compiler, hcompiler, hfound⟩ := hc.compiler
    obtain rfl := Except.ok.inj (hopens.resolved.symm.trans hcompiler)
    exact nomatch hopens.exists_eq.symm.trans hfound
  | unlisted hopens hlist hnote =>
    refine .inr ⟨fun c hc => ?_, rfl, rfl, rfl⟩
    obtain ⟨before, hbefore⟩ := hc.listing
    exact nomatch hlist.symm.trans hbefore
  | compared hopens hlist hcompare =>
    obtain ⟨c, t, ht, hkeeps⟩ := hcompare.keeps
    exact .inl ⟨c, ⟨hopens.isSource, ⟨_, hopens.resolved, hopens.exists_eq⟩, ⟨_, hlist⟩, ⟨t, ht⟩⟩,
      hkeeps.path, hkeeps.collection, hkeeps.last⟩

/-! ## Tasks and their marks -/

/-- What launches the compiler: the commands, and the probe. -/
inductive Task
  | command (c : Command)
  | probe
  deriving DecidableEq, Repr

/-- A task without its answer. -/
def Task.act : Task → Action Engine Unit
  | .command c => c.act
  | .probe => do let _ ← Engine.probe

/-- A compilation, the findings of which are filed or not. -/
inductive Mark
  | filed (c : Compilation)
  | listed (c : Compilation)

def Mark.compilation : Mark → Compilation
  | .filed c => c
  | .listed c => c

/-- The compilation that a task comes to on a setup, if it gets as far. -/
inductive Marks (s : Setup) (source : String) : Task → Option Mark → Prop
  | uncompiled {command} (h : ¬ Invokes s source) : Marks s source (.command command) none
  | filed {command c} (h : Launches s source c) : Marks s source (.command command) (some (.filed c))
  | unlisted (h : ∀ c, ¬ Lists s source c) : Marks s source .probe none
  | listed {c} (h : Lists s source c) : Marks s source .probe (some (.listed c))

theorem Marks.unique {s : Setup} {source : String} {task : Task} {m n : Option Mark}
    (hm : Marks s source task m) (hn : Marks s source task n) : m = n := by
  cases hm with
  | uncompiled h =>
    cases hn with
    | uncompiled h' => rfl
    | filed h' => exact absurd h'.invokes h
  | filed h =>
    cases hn with
    | uncompiled h' => exact absurd h.invokes h'
    | filed h' => rw [h.unique h']
  | unlisted h =>
    cases hn with
    | unlisted h' => rfl
    | listed h' => exact absurd h' (h _)
  | listed h =>
    cases hn with
    | unlisted h' => exact absurd h (h' _)
    | listed h' => rw [h.unique h']

/-- The diagnostics after a mark. -/
def Mark.after (ds : List Diagnostic) : Mark → List Diagnostic
  | .filed c => c.findings
  | .listed _ => ds

/-- A task changes the last compilation and the diagnostics as its mark says. -/
structure Leaves (e : Engine) (mark : Option Mark) (e' : Engine) : Prop where
  path : e'.session.path = e.session.path
  last : e'.session.lastCompilation = (mark.map Mark.compilation).or e.session.lastCompilation
  diagnostics : e'.session.diagnostics =
    mark.elim e.session.diagnostics (Mark.after e.session.diagnostics)

theorem Keeps.diagnostics {e e' : Engine} (h : Keeps e e') :
    e'.session.diagnostics = e.session.diagnostics := by
  rw [Session.diagnostics, Session.diagnostics, h.path, h.collection]

/-- A task that comes to an end has a mark, and leaves what the mark says. -/
theorem exists_marks {task : Task} {e e' : Engine} (h : task.act e = (.ok (), e')) :
    ∃ mark, Marks e.setup e.session.path task mark ∧ Leaves e mark e' := by
  cases task with
  | command command =>
    rcases verdict_of_act h with ⟨hnot, hkeeps⟩ | ⟨c, hc, hdecides⟩
    · exact ⟨none, .uncompiled hnot, hkeeps.path, hkeeps.last, hkeeps.diagnostics⟩
    · exact ⟨some (.filed c), .filed hc, hdecides.path, hdecides.last, hdecides.diagnostics⟩
  | probe =>
    obtain ⟨r, t, hprobe, hpure⟩ := Action.bind_eq_ok.1 h
    obtain ⟨-, rfl⟩ := Prod.mk.inj hpure
    rcases (probe_eq_ok.1 hprobe).keeps with ⟨c, hc, hkeeps⟩ | ⟨hnot, hkeeps⟩
    · exact ⟨some (.listed c), .listed hc, hkeeps.path, hkeeps.last, hkeeps.diagnostics⟩
    · exact ⟨none, .unlisted hnot, hkeeps.path, hkeeps.last, hkeeps.diagnostics⟩

/-! ## Tasks in a row -/

/-- Tasks that all come to an end, one after the other, and the marks that they leave. The setup of
each is the one that it finds, which others may have changed since the task before. -/
inductive Follows : Engine → List Mark → Engine → Prop
  | nil (e : Engine) : Follows e [] e
  | cons {task : Task} {e e' e'' : Engine} {s : Setup} {mark : Option Mark} {marks : List Mark}
      (h : task.act { e with setup := s } = (.ok (), e')) (hmark : Marks s e.session.path task mark)
      (hrest : Follows e' marks e'') : Follows e (mark.toList ++ marks) e''

/-- The diagnostics after some marks are those of the last one that was filed. -/
def afterAll (ds : List Diagnostic) (marks : List Mark) : List Diagnostic :=
  marks.foldl Mark.after ds

theorem Follows.leaves {e e' : Engine} {marks : List Mark} (h : Follows e marks e') :
    e'.session.path = e.session.path ∧
      e'.session.lastCompilation =
        (marks.getLast?.map Mark.compilation).or e.session.lastCompilation ∧
      e'.session.diagnostics = afterAll e.session.diagnostics marks := by
  -- Induction on the tasks: what the first one leaves is what the others start from, also where
  -- none of them compiles.
  induction h with
  | nil e => exact ⟨rfl, rfl, rfl⟩
  | @cons task e e' e'' s mark marks h hmark hrest ih =>
    obtain ⟨mark', hmark', hpath, hlast, hdiagnostics⟩ := exists_marks h
    obtain rfl := hmark.unique hmark'
    obtain ⟨hpath', hlast', hdiagnostics'⟩ := ih
    refine ⟨hpath'.trans hpath, ?_, ?_⟩
    · rw [hlast', hlast]
      cases mark <;> cases hl : marks.getLast? <;> simp [List.getLast?_cons, hl]
    · rw [hdiagnostics', hdiagnostics]
      cases mark <;> rfl

theorem afterAll_of_filed {marks : List Mark} {c : Compilation}
    (h : marks.getLast? = some (.filed c)) (ds : List Diagnostic) :
    afterAll ds marks = c.findings := by
  obtain ⟨before, rfl⟩ := List.getLast?_eq_some_iff.1 h
  rw [afterAll, List.foldl_append]
  rfl

theorem session_of_make {path : String} {s s' : Setup} {e : Engine}
    (h : make path s = (.ok e, s')) : e.session = { path } := by
  obtain ⟨_, t, -, h⟩ := Action.bind_eq_ok.1 h
  obtain ⟨setup, u, -, h⟩ := Action.bind_eq_ok.1 h
  obtain ⟨he, -⟩ := Prod.mk.inj h
  obtain rfl := Except.ok.inj he
  rfl

theorem setup_of_make {path : String} {s s' : Setup} {e : Engine}
    (h : make path s = (.ok e, s')) : e.setup = (Compiler.greet s).2 := by
  obtain ⟨_, t, hgreet, h⟩ := Action.bind_eq_ok.1 h
  obtain ⟨he, -⟩ := Prod.mk.inj h
  obtain rfl := Except.ok.inj he
  rw [hgreet]

theorem Follows.append {e e' e'' : Engine} {marks more : List Mark} (h : Follows e marks e')
    (hmore : Follows e' more e'') : Follows e (marks ++ more) e'' := by
  induction h with
  | nil e => exact hmore
  | cons h hmark hrest ih =>
    rw [List.append_assoc]
    exact .cons h hmark (ih hmore)

/-- A task that comes to an end goes on with the row. -/
theorem Follows.exists_next {e₀ e e' : Engine} {marks : List Mark} (h : Follows e₀ marks e)
    {task : Task} {s : Setup} (htask : task.act { e with setup := s } = (.ok (), e')) :
    ∃ mark, Marks s e.session.path task mark ∧ Follows e₀ (marks ++ mark.toList) e' := by
  obtain ⟨mark, hmark, -⟩ := exists_marks htask
  have hone : Follows e (mark.toList ++ []) e' := .cons htask hmark (.nil e')
  rw [List.append_nil] at hone
  exact ⟨mark, hmark, h.append hone⟩

/-- In a row of tasks from a new engine, the last mark is the last compilation, and the last one that
was filed has the diagnostics. So the diagnostics are those of the last compilation unless that was a
probe which found something else than what was filed before. -/
theorem diagnostics_of_marks {path : String} {s s' : Setup} {e₀ e : Engine} {marks : List Mark}
    (hmake : make path s = (.ok e₀, s')) (h : Follows e₀ marks e) :
    (∀ (task : Task) (t : Setup) (e' : Engine), task.act { e with setup := t } = (.ok (), e') →
      ∃ mark, Marks t e.session.path task mark ∧ Follows e₀ (marks ++ mark.toList) e') ∧
    e.session.lastCompilation = marks.getLast?.map Mark.compilation ∧
    e.session.diagnostics = afterAll [] marks ∧
    ((∀ c, e.session.lastCompilation = some c → e.session.diagnostics = c.findings) ↔
      ∀ c, marks.getLast? = some (.listed c) → c.findings = afterAll [] marks) := by
  have hfresh : e₀.session = { path } := session_of_make hmake
  have hnone : e₀.session.lastCompilation = none := by rw [hfresh]
  have hempty : e₀.session.diagnostics = [] := by rw [hfresh]; rfl
  obtain ⟨-, hlast, hdiagnostics⟩ := h.leaves
  rw [hnone, Option.or_none] at hlast
  rw [hempty] at hdiagnostics
  refine ⟨fun task t e' htask => h.exists_next htask, hlast, hdiagnostics, fun hagree c hc => ?_,
    fun hprobe c hc => ?_⟩
  · rw [hc] at hlast
    rw [← hdiagnostics, hagree c hlast]
  · rw [hlast] at hc
    obtain ⟨mark, hmark, rfl⟩ := Option.map_eq_some_iff.1 hc
    rw [hdiagnostics]
    cases mark with
    | filed c => exact afterAll_of_filed hmark []
    | listed c => exact (hprobe c hmark).symm

/-- A setup on which the compiler finds a fault at first and none after that. -/
def mendedSetup : Setup where
  machine :=
    { disk := [(["tmp"], .directory), (["w"], .directory), (["opt"], .directory),
        (["opt", "cplebolt"], .directory), (["opt", "cplebolt", "bin"], .directory),
        (["opt", "cplebolt", "bin", "cple.out"], .file (.bytes []))]
      outcomes := [{ ending := .exited 1 "" "a.cple:2:1: error: no name" }, {}] }
  settings := { directory := Path.ofText "/home/user", values := [] }

/-- The engine for a source of that setup. -/
def mendedEngine : Engine := { setup := mendedSetup, session := { path := "/w/a.cple" } }

theorem make_mendedEngine : make "/w/a.cple" mendedSetup = (.ok mendedEngine, mendedSetup) := rfl

/-- After a compilation that failed and a probe that succeeded, the last compilation is the one of
the probe, and the diagnostics are the ones that were filed. -/
theorem marks_of_mendedEngine :
    ∃ c d e, Follows mendedEngine [.filed c, .listed d] e ∧
      e.session.lastCompilation = some d ∧ e.session.diagnostics = c.findings := by
  let e₁ := (Command.compile.act mendedEngine).2
  let e₂ := (Task.probe.act e₁).2
  have h₁ : (Task.command .compile).act mendedEngine = (.ok (), e₁) :=
    Action.eq_of_toOption (by decide +kernel)
  have h₂ : Task.probe.act e₁ = (.ok (), e₂) := Action.eq_of_toOption (by decide +kernel)
  have hlast₁ : e₁.session.lastCompilation.map Compilation.succeeded = some false := by
    decide +kernel
  have hlast₂ : e₂.session.lastCompilation.map Compilation.succeeded = some true := by
    decide +kernel
  obtain ⟨hnext, -⟩ := diagnostics_of_marks make_mendedEngine (.nil mendedEngine)
  obtain ⟨mark, hmark, hone⟩ := hnext _ _ _ h₁
  obtain ⟨hnext, hlastone, -⟩ := diagnostics_of_marks make_mendedEngine hone
  obtain ⟨mark', hmark', htwo⟩ := hnext _ _ _ h₂
  obtain ⟨-, hlasttwo, hdiagnostics, -⟩ := diagnostics_of_marks make_mendedEngine htwo
  rw [hlastone] at hlast₁
  rw [hlasttwo] at hlast₂
  cases hmark with
  | uncompiled hnot => exact nomatch hlast₁
  | @filed _ c hc =>
    cases hmark' with
    | unlisted hnot => exact absurd (hlast₁.symm.trans hlast₂) (by decide)
    | @listed d hd => exact ⟨c, d, e₂, htwo, hlasttwo, hdiagnostics⟩

/-- The probe finds nothing wrong, but the diagnostic of the compilation before stays. -/
theorem stale_diagnostics_of_mendedEngine :
    ∃ e₁ e₂ c, make "/w/a.cple" mendedSetup = (.ok mendedEngine, mendedSetup) ∧
      Engine.compile mendedEngine = (.ok false, e₁) ∧ probe e₁ = (.ok true, e₂) ∧
      e₂.session.lastCompilation = some c ∧ c.succeeded = true ∧
      e₂.session.diagnostics =
        [{ line := 1, column := 1, severity := .error, message := "no name" }] := by
  let e₁ := (Engine.compile mendedEngine).2
  let e₂ := (probe e₁).2
  have h₁ : Engine.compile mendedEngine = (.ok false, e₁) := Action.eq_of_toOption (by decide +kernel)
  have h₂ : probe e₁ = (.ok true, e₂) := Action.eq_of_toOption (by decide +kernel)
  have hlast : e₂.session.lastCompilation.map Compilation.succeeded = some true := by
    decide +kernel
  have hdiagnostics : e₂.session.diagnostics =
      [{ line := 1, column := 1, severity := .error, message := "no name" }] := by decide +kernel
  obtain ⟨c, hc, hsucceeded⟩ := Option.map_eq_some_iff.1 hlast
  exact ⟨e₁, e₂, c, make_mendedEngine, h₁, h₂, hc, hsucceeded, hdiagnostics⟩

end Workbench.Engine
