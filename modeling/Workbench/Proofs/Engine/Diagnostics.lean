import Workbench.Proofs.Engine.Compile

/-!
# Diagnostics belong to the last compilation

Whatever an engine held before, the diagnostics of its source are those of the compilation that came
last, and nothing else is in the collection of diagnostics that was not there before.

* `Command` : the commands that compile;
* `Launches s source c` : the compiler is there and its launch amounts to the compilation `c`;
* `Keeps e e'` : the diagnostics and the last compilation are as they were;
* `Decides e c e'` : the diagnostics of the source are those of `c`, the others are as they were;
* `Runs e setups e'` : commands one after the other, each with the setup that it finds;
* `diagnostics_of_last_compilation` : what a command, two engines and a run of commands show.
-/

namespace Workbench.Engine

/-- The commands that compile. -/
inductive Command
  | compile
  | check
  | run
  deriving DecidableEq, Repr

/-- A command without its answer. -/
def Command.act : Command → Action Engine Unit
  | .compile => do let _ ← Engine.compile
  | .check => do let _ ← Engine.check
  | .run => do let _ ← Engine.run

/-- The source can be compiled and the compiler is there. -/
def Invokes (s : Setup) (source : String) : Prop :=
  ∃ p, Prepares s source p ∧ p.found = true

/-- The compiler is there, and its launch amounts to this compilation. -/
def Launches (s : Setup) (source : String) (c : Compilation) : Prop :=
  ∃ p b, Prepares s source p ∧ p.found = true ∧ Builds p.setup source b ∧ b.compilation = c

theorem Launches.invokes {s : Setup} {source : String} {c : Compilation} (h : Launches s source c) :
    Invokes s source := by
  obtain ⟨p, b, hp, hfound, -, -⟩ := h
  exact ⟨p, hp, hfound⟩

theorem Launches.unique {s : Setup} {source : String} {c d : Compilation} (hc : Launches s source c)
    (hd : Launches s source d) : c = d := by
  obtain ⟨p, b, hp, -, hb, rfl⟩ := hc
  obtain ⟨q, b', hq, -, hb', rfl⟩ := hd
  obtain rfl := hp.unique hq
  rw [hb.unique hb']

/-! ## What a command leaves alone -/

/-- The diagnostics and the last compilation are as they were. -/
structure Keeps (e e' : Engine) : Prop where
  path : e'.session.path = e.session.path
  collection : e'.session.collection = e.session.collection
  last : e'.session.lastCompilation = e.session.lastCompilation

/-- The diagnostics of the source are those of a compilation, which is the last one. -/
structure Decides (e : Engine) (c : Compilation) (e' : Engine) : Prop where
  path : e'.session.path = e.session.path
  last : e'.session.lastCompilation = some c
  diagnostics : e'.session.diagnostics = c.findings
  others : ∀ document, document ≠ e.session.path →
    Record.get? e'.session.collection document = Record.get? e.session.collection document

theorem Keeps.refl (e : Engine) : Keeps e e := ⟨rfl, rfl, rfl⟩

theorem Keeps.trans {e₁ e₂ e₃ : Engine} (h : Keeps e₁ e₂) (h' : Keeps e₂ e₃) : Keeps e₁ e₃ :=
  ⟨h'.path.trans h.path, h'.collection.trans h.collection, h'.last.trans h.last⟩

theorem Keeps.decides {e₁ e₂ e₃ : Engine} {c : Compilation} (h : Keeps e₁ e₂)
    (h' : Decides e₂ c e₃) : Decides e₁ c e₃ where
  path := h'.path.trans h.path
  last := h'.last
  diagnostics := h'.diagnostics
  others := by
    intro document hd
    rw [h'.others document (h.path ▸ hd), h.collection]

theorem Decides.keeps {e₁ e₂ e₃ : Engine} {c : Compilation} (h : Decides e₁ c e₂)
    (h' : Keeps e₂ e₃) : Decides e₁ c e₃ where
  path := h'.path.trans h.path
  last := h'.last.trans h.last
  diagnostics := by
    rw [← h.diagnostics, Session.diagnostics, Session.diagnostics, h'.path, h'.collection]
  others := by
    intro document hd
    rw [h'.collection, h.others document hd]

/-- A later compilation leaves nothing of an earlier one. -/
theorem Decides.decides {e₁ e₂ e₃ : Engine} {c d : Compilation} (h : Decides e₁ c e₂)
    (h' : Decides e₂ d e₃) : Decides e₁ d e₃ where
  path := h'.path.trans h.path
  last := h'.last
  diagnostics := h'.diagnostics
  others := by
    intro document hd
    rw [h'.others document (h.path ▸ hd), h.others document hd]

/-- Work that leaves the diagnostics and the last compilation alone, even where it fails. -/
def Quiet {α : Type} (a : Action Engine α) : Prop := ∀ e, Keeps e (a e).2

section Quiet
variable {α β : Type}

theorem quiet_pure (x : α) : Quiet (pure x) := Keeps.refl

theorem quiet_throw (failure : Failure) : Quiet (throw failure : Action Engine α) := Keeps.refl

theorem quiet_get : Quiet (get : Action Engine Engine) := Keeps.refl

theorem Quiet.bind {a : Action Engine α} {f : α → Action Engine β} (ha : Quiet a)
    (hf : ∀ x, Quiet (f x)) : Quiet (a >>= f) := by
  intro e
  have hkeeps := ha e
  rw [Action.bind_apply]
  split
  · next x t h =>
    rw [h] at hkeeps
    exact hkeeps.trans (hf x t)
  · next x t h =>
    rw [h] at hkeeps
    exact hkeeps

theorem quiet_onSetup (a : Action Setup α) : Quiet (onSetup a) := fun _ => ⟨rfl, rfl, rfl⟩

theorem quiet_note (text : String) : Quiet (note text) := quiet_onSetup (noteOn text)

theorem quiet_say (text : String) : Quiet (say text) := fun _ => ⟨rfl, rfl, rfl⟩

theorem quiet_sayAll (texts : List String) : Quiet (sayAll texts) := by
  intro e
  rw [sayAll_apply, Session.foldl_say]
  exact ⟨rfl, rfl, rfl⟩

theorem quiet_setStatus (status : String) : Quiet (setStatus status) := fun _ => ⟨rfl, rfl, rfl⟩

theorem quiet_publish : Quiet publish := fun _ => ⟨rfl, rfl, rfl⟩

theorem quiet_finish (status : String) : Quiet (finish status) := fun _ => ⟨rfl, rfl, rfl⟩

end Quiet

theorem quiet_reportExecution (program : Path) (x : Execution) :
    Quiet (reportExecution program x) :=
  (quiet_sayAll _).bind fun _ => (quiet_setStatus _).bind fun _ => (quiet_sayAll _).bind fun _ =>
    (quiet_note _).bind fun _ => quiet_publish

theorem quiet_execute (source : String) (program : Path) : Quiet (execute source program) := by
  refine (quiet_sayAll _).bind fun _ => (quiet_onSetup _).bind fun x => ?_
  refine Quiet.bind (fun _ => ⟨rfl, rfl, rfl⟩) fun _ => ?_
  exact (quiet_reportExecution program x).bind fun _ => quiet_pure x

/-- To look for a program and to run it is no compilation. -/
theorem quiet_runCompiled (source : String) : Quiet (runCompiled source) := by
  refine quiet_get.bind fun e => ?_
  dsimp only
  split
  · exact Quiet.bind ((quiet_say _).bind fun _ => (quiet_note _).bind fun _ => quiet_finish _)
      fun _ => quiet_pure none
  · exact Quiet.bind ((quiet_say _).bind fun _ => (quiet_say _).bind fun _ =>
      (quiet_note _).bind fun _ => quiet_finish _) fun _ => quiet_pure none
  · exact quiet_throw _
  · next l _ =>
    refine Quiet.bind (fun _ => ⟨rfl, rfl, rfl⟩) fun _ => ?_
    cases l.path with
    | none =>
      refine Quiet.bind ?_ fun _ => quiet_pure none
      exact (quiet_say _).bind fun _ => (quiet_sayAll _).bind fun _ => (quiet_say _).bind fun _ =>
        (quiet_note _).bind fun _ => quiet_finish _
    | some program => exact (quiet_execute source program).bind fun x => quiet_pure (some x)

/-! ## What a command decides -/

theorem Build.decides (b : Build) (e : Engine) : Decides e b.compilation (b.engine e) where
  path := rfl
  last := rfl
  diagnostics := by
    show Collection.of (if b.compilation.findings = [] then Record.erase e.session.collection
      e.session.path else Record.put (Record.erase e.session.collection e.session.path)
        e.session.path b.compilation.findings) e.session.path = b.compilation.findings
    unfold Collection.of
    split
    · next h =>
      rw [Record.get?_erase, if_pos rfl, h]
      rfl
    · rw [Record.get?_put, if_pos rfl]
      rfl
  others := by
    intro document hd
    show Record.get? (if b.compilation.findings = [] then Record.erase e.session.collection
      e.session.path else Record.put (Record.erase e.session.collection e.session.path)
        e.session.path b.compilation.findings) document = Record.get? e.session.collection document
    split
    · rw [Record.get?_erase, if_neg (Ne.symm hd)]
    · rw [Record.get?_put, if_neg (Ne.symm hd), Record.get?_erase, if_neg (Ne.symm hd)]

/-- A command leaves the diagnostics alone, or it launches the compiler and decides them. -/
def Verdict (e e' : Engine) : Prop :=
  (¬ Invokes e.setup e.session.path ∧ Keeps e e') ∨
    ∃ c, Launches e.setup e.session.path c ∧ Decides e c e'

theorem keeps_reread (e : Engine) (s : Setup) (code : Option String) :
    Keeps e { e with setup := s, session := e.session.reread code } := by
  cases code <;> exact ⟨rfl, rfl, rfl⟩

theorem not_invokes_of_not_isSource {s : Setup} {source : String} (h : isSource source = false) :
    ¬ Invokes s source := by
  rintro ⟨p, hp, -⟩
  rw [hp.isSource] at h
  exact Bool.noConfusion h

theorem Compiles.verdict {e e' : Engine} {r : Bool} (h : Compiles e r e') : Verdict e e' := by
  cases h with
  | refused h => exact Or.inl ⟨not_invokes_of_not_isSource h, rfl, rfl, rfl⟩
  | @missing p s h hfound =>
    refine Or.inl ⟨?_, (keeps_reread e s p.code).trans ⟨rfl, rfl, rfl⟩⟩
    rintro ⟨q, hq, hq'⟩
    rw [hq.unique h, hfound] at hq'
    exact Bool.noConfusion hq'
  | @built p b h hfound hb =>
    exact Or.inr ⟨b.compilation, ⟨p, b, h, hfound, hb, rfl⟩,
      (keeps_reread e p.setup p.code).decides (b.decides _)⟩

/-- A verdict stands if nothing about the diagnostics happens before and after it. -/
theorem Verdict.of_keeps {e₁ e₂ e₃ e₄ : Engine} (h : Keeps e₁ e₂) (hsetup : e₂.setup = e₁.setup)
    (hv : Verdict e₂ e₃) (h' : Keeps e₃ e₄) : Verdict e₁ e₄ := by
  unfold Verdict at hv
  rw [hsetup, h.path] at hv
  rcases hv with ⟨hnot, hkeeps⟩ | ⟨c, hc, hdecides⟩
  · exact Or.inl ⟨hnot, (h.trans hkeeps).trans h'⟩
  · exact Or.inr ⟨c, hc, (h.decides hdecides).keeps h'⟩

theorem verdict_of_check {e e' : Engine} {r : Bool} (h : check e = (.ok r, e')) : Verdict e e' := by
  unfold check at h
  rw [Action.bind_eq_of_ok (Action.get_apply e)] at h
  by_cases hsource : isSource e.session.path = true
  · rw [if_pos hsource, Action.bind_eq_of_ok (say_apply _ e)] at h
    exact Verdict.of_keeps (quiet_say "Checking CPLE syntax..." e) rfl (compile_eq_ok.1 h).verdict
      (Keeps.refl e')
  · rw [if_neg hsource, Action.bind_eq_of_ok (refuse_apply e)] at h
    obtain ⟨-, rfl⟩ := Prod.mk.inj h
    exact Or.inl ⟨not_invokes_of_not_isSource (by simpa using hsource), rfl, rfl, rfl⟩

theorem verdict_of_run {e e' : Engine} {x : Option Execution} (h : run e = (.ok x, e')) :
    Verdict e e' := by
  obtain ⟨r, t, hcompile, hrest⟩ := Action.bind_eq_ok.1 h
  have hquiet : Quiet (if r then get >>= fun e => runCompiled e.session.path
      else (pure none : Action Engine (Option Execution))) := by
    cases r with
    | false => exact quiet_pure none
    | true => exact quiet_get.bind fun e => quiet_runCompiled e.session.path
  have hkeeps := hquiet t
  rw [hrest] at hkeeps
  exact Verdict.of_keeps (Keeps.refl e) rfl (compile_eq_ok.1 hcompile).verdict hkeeps

theorem verdict_of_act {command : Command} {e e' : Engine} {u : Unit}
    (h : command.act e = (.ok u, e')) : Verdict e e' := by
  cases command with
  | compile =>
    obtain ⟨r, t, hr, hpure⟩ := Action.bind_eq_ok.1 h
    obtain ⟨-, rfl⟩ := Prod.mk.inj hpure
    exact (compile_eq_ok.1 hr).verdict
  | check =>
    obtain ⟨r, t, hr, hpure⟩ := Action.bind_eq_ok.1 h
    obtain ⟨-, rfl⟩ := Prod.mk.inj hpure
    exact verdict_of_check hr
  | run =>
    obtain ⟨r, t, hr, hpure⟩ := Action.bind_eq_ok.1 h
    obtain ⟨-, rfl⟩ := Prod.mk.inj hpure
    exact verdict_of_run hr

/-! ## Two engines -/

theorem output_reread (s : Session) (code : Option String) : (s.reread code).output = s.output := by
  cases code <;> rfl

/-- An engine with the same setup and source compiles alike: the same answer, the same lines at the
end of the log, the same setup afterwards. -/
theorem Compiles.alike {e₁ e₂ e₁' : Engine} {r : Bool} (h : Compiles e₁ r e₁')
    (hsetup : e₂.setup = e₁.setup) (hpath : e₂.session.path = e₁.session.path) :
    ∃ e₂' lines, Compiles e₂ r e₂' ∧ e₂'.setup = e₁'.setup ∧
      e₁'.session.output = e₁.session.output ++ lines ∧
      e₂'.session.output = e₂.session.output ++ lines := by
  cases h with
  | refused h =>
    refine ⟨e₂.refused, Text.splitLines "❌ Not a CPLE file", .refused (by rwa [hpath]), hsetup, rfl,
      rfl⟩
  | @missing p s h hfound hnote =>
    refine ⟨e₂.missing p s, Text.splitLines ("❌ Error: " ++ Compiler.missingText p.compiler),
      .missing (by rwa [hsetup, hpath]) hfound hnote, rfl, ?_, ?_⟩
    · exact congrArg (· ++ _) (output_reread e₁.session p.code)
    · exact congrArg (· ++ _) (output_reread e₂.session p.code)
  | @built p b h hfound hb =>
    refine ⟨_, OutputLog.linesOf b.texts, .built (by rwa [hsetup, hpath]) hfound (by rwa [hpath]),
      rfl, ?_, ?_⟩
    · exact congrArg (· ++ _) (output_reread e₁.session p.code)
    · exact congrArg (· ++ _) (output_reread e₂.session p.code)

/-- After a launch, the source has the same diagnostics and the same last compilation in both. -/
theorem Verdict.alike {e₁ e₂ e₁' e₂' : Engine} (h₁ : Verdict e₁ e₁') (h₂ : Verdict e₂ e₂')
    (hsetup : e₂.setup = e₁.setup) (hpath : e₂.session.path = e₁.session.path)
    (hinvokes : Invokes e₁.setup e₁.session.path) :
    e₂'.session.diagnostics = e₁'.session.diagnostics ∧
      e₂'.session.lastCompilation = e₁'.session.lastCompilation := by
  rcases h₁ with ⟨hnot, -⟩ | ⟨c, hc, hdecides⟩
  · exact absurd hinvokes hnot
  · unfold Verdict at h₂
    rw [hsetup, hpath] at h₂
    rcases h₂ with ⟨hnot, -⟩ | ⟨d, hd, hdecides'⟩
    · exact absurd hinvokes hnot
    · obtain rfl := hc.unique hd
      exact ⟨hdecides'.diagnostics.trans hdecides.diagnostics.symm,
        hdecides'.last.trans hdecides.last.symm⟩

/-! ## Commands in a row -/

/-- Commands that all come to an end, one after the other. The setup of each is the one that it
finds, which others may have changed since the command before. -/
inductive Runs : Engine → List Setup → Engine → Prop
  | nil (e : Engine) : Runs e [] e
  | cons {command : Command} {e e' e'' : Engine} {s : Setup} {rest : List Setup}
      (h : command.act { e with setup := s } = (.ok (), e')) (hrest : Runs e' rest e'') :
      Runs e (s :: rest) e''

/-- The last one of the commands that launched the compiler decides the diagnostics. -/
theorem Runs.verdict {e e' : Engine} {setups : List Setup} (h : Runs e setups e') :
    ((∀ s ∈ setups, ¬ Invokes s e.session.path) ∧ Keeps e e') ∨
      ∃ before s after c, setups = before ++ s :: after ∧
        (∀ t ∈ after, ¬ Invokes t e.session.path) ∧ Launches s e.session.path c ∧
        Decides e c e' := by
  induction h with
  | nil e => exact Or.inl ⟨fun s hs => absurd hs List.not_mem_nil, Keeps.refl e⟩
  | @cons command e e' e'' s rest h hrest ih =>
    have hkeeps : Keeps e { e with setup := s } := ⟨rfl, rfl, rfl⟩
    rcases verdict_of_act h with ⟨hnot, hfirst⟩ | ⟨c, hc, hfirst⟩
    · have hpath : e'.session.path = e.session.path := hfirst.path
      rw [hpath] at ih
      rcases ih with ⟨hrest', hlater⟩ | ⟨before, t, after, d, rfl, hafter, hd, hlater⟩
      · refine Or.inl ⟨fun t ht => ?_, (hkeeps.trans hfirst).trans hlater⟩
        rcases List.mem_cons.1 ht with rfl | ht
        · exact hnot
        · exact hrest' t ht
      · exact Or.inr ⟨s :: before, t, after, d, rfl, hafter, hd,
          (hkeeps.trans hfirst).decides hlater⟩
    · have hpath : e'.session.path = e.session.path := hfirst.path
      rw [hpath] at ih
      rcases ih with ⟨hrest', hlater⟩ | ⟨before, t, after, d, rfl, hafter, hd, hlater⟩
      · exact Or.inr ⟨[], s, rest, c, rfl, hrest', hc, (hkeeps.decides hfirst).keeps hlater⟩
      · exact Or.inr ⟨s :: before, t, after, d, rfl, hafter, hd,
          (hkeeps.decides hfirst).decides hlater⟩

/-- A command that launches the compiler leaves the diagnostics of that compilation for its source,
and any other one leaves all diagnostics alone. What a launch shows depends on the setup and the
source only. So commands in a row leave the diagnostics of the last compilation. -/
theorem diagnostics_of_last_compilation :
    (∀ (s : Setup) (source : String) (c d : Compilation),
      Launches s source c → Launches s source d → c = d) ∧
    (∀ (command : Command) (e e' : Engine), command.act e = (.ok (), e') →
      (Invokes e.setup e.session.path →
        ∃ c, Launches e.setup e.session.path c ∧ Decides e c e') ∧
      (¬ Invokes e.setup e.session.path → Keeps e e')) ∧
    (∀ (e₁ e₂ e₁' : Engine) (r : Bool), e₂.setup = e₁.setup →
      e₂.session.path = e₁.session.path → compile e₁ = (.ok r, e₁') →
      ∃ e₂' lines, compile e₂ = (.ok r, e₂') ∧ e₂'.setup = e₁'.setup ∧
        e₁'.session.output = e₁.session.output ++ lines ∧
        e₂'.session.output = e₂.session.output ++ lines ∧
        (Invokes e₁.setup e₁.session.path →
          e₂'.session.diagnostics = e₁'.session.diagnostics ∧
          e₂'.session.lastCompilation = e₁'.session.lastCompilation)) ∧
    (∀ (e e' : Engine) (setups : List Setup), Runs e setups e' →
      ((∀ s ∈ setups, ¬ Invokes s e.session.path) ∧ Keeps e e') ∨
        ∃ before s after c, setups = before ++ s :: after ∧
          (∀ t ∈ after, ¬ Invokes t e.session.path) ∧ Launches s e.session.path c ∧
          Decides e c e') := by
  refine ⟨fun s source c d hc hd => hc.unique hd, fun command e e' h => ?_,
    fun e₁ e₂ e₁' r hsetup hpath h => ?_, fun e e' setups h => h.verdict⟩
  · rcases verdict_of_act h with ⟨hnot, hkeeps⟩ | ⟨c, hc, hdecides⟩
    · exact ⟨fun hinvokes => absurd hinvokes hnot, fun _ => hkeeps⟩
    · exact ⟨fun _ => ⟨c, hc, hdecides⟩, fun hnot => absurd hc.invokes hnot⟩
  · have h₁ := compile_eq_ok.1 h
    obtain ⟨e₂', lines, h₂, hafter, hlines₁, hlines₂⟩ := h₁.alike hsetup hpath
    exact ⟨e₂', lines, compile_eq_ok.2 h₂, hafter, hlines₁, hlines₂,
      fun hinvokes => h₁.verdict.alike h₂.verdict hsetup hpath hinvokes⟩

/-- An engine that still shows a diagnostic of the source and one of another document. Its compiler
finds a fault at first and none after that. -/
def staleEngine : Engine where
  setup :=
    { machine :=
        { disk := [(["tmp"], .directory), (["opt"], .directory), (["opt", "cplebolt"], .directory),
            (["opt", "cplebolt", "bin"], .directory),
            (["opt", "cplebolt", "bin", "cple.out"], .file (.bytes []))]
          outcomes := [{ ending := .exited 1 "" "a.cple:2:1: error: no name" }, {}] }
      settings := { directory := Path.ofText "/home/user", values := [] } }
  session :=
    { path := "/w/a.cple"
      collection := [("/w/a.cple", [{ line := 7, column := 0, severity := .warning, message := "old" }]),
        ("/w/b.cple", [{ line := 1, column := 0, severity := .error, message := "kept" }])] }

theorem act_eq_of_isOk {command : Command} {e : Engine} (h : (command.act e).1.isOk = true) :
    command.act e = (.ok (), (command.act e).2) := by
  refine Prod.ext ?_ rfl
  cases hr : (command.act e).1 with
  | ok u => rfl
  | error x =>
    rw [hr] at h
    exact Bool.noConfusion h

/-- The old diagnostic gives way to the one that the compiler found, and that one to none. -/
theorem diagnostics_of_staleEngine :
    ∃ e₁ e₂ c d, Command.check.act staleEngine = (.ok (), e₁) ∧ Decides staleEngine c e₁ ∧
      e₁.session.diagnostics =
        [{ line := 1, column := 1, severity := .error, message := "no name" }] ∧
      Runs staleEngine [staleEngine.setup, e₁.setup] e₂ ∧ Decides staleEngine d e₂ ∧
      e₂.session.diagnostics = [] := by
  let e₁ := (Command.check.act staleEngine).2
  let e₂ := (Command.compile.act e₁).2
  have h₁ : Command.check.act staleEngine = (.ok (), e₁) := act_eq_of_isOk (by decide +kernel)
  have h₂ : Command.compile.act e₁ = (.ok (), e₂) := act_eq_of_isOk (by decide +kernel)
  have hruns : Runs staleEngine [staleEngine.setup, e₁.setup] e₂ := .cons h₁ (.cons h₂ (.nil e₂))
  have hlast₁ : e₁.session.lastCompilation.isSome = true := by decide +kernel
  have hlast₂ : e₂.session.lastCompilation.isSome = true := by decide +kernel
  have hinvokes : Invokes staleEngine.setup staleEngine.session.path := by
    refine Classical.byContradiction fun hnot => ?_
    have hkeeps := (diagnostics_of_last_compilation.2.1 .check _ _ h₁).2 hnot
    rw [hkeeps.last] at hlast₁
    exact absurd hlast₁ (by decide)
  obtain ⟨c, -, hc⟩ := (diagnostics_of_last_compilation.2.1 .check _ _ h₁).1 hinvokes
  rcases diagnostics_of_last_compilation.2.2.2 _ _ _ hruns with ⟨-, hkeeps⟩ | ⟨_, _, _, d, -, -, -, hd⟩
  · rw [hkeeps.last] at hlast₂
    exact absurd hlast₂ (by decide)
  · exact ⟨e₁, e₂, c, d, h₁, hc, by decide +kernel, hruns, hd, by decide +kernel⟩

end Workbench.Engine
