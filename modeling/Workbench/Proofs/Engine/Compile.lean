import Workbench.Engine.Command

/-!
# What a compilation does to an engine

A compilation that comes to an end is described without the order of its steps:

* `Prepared`, `Prepares s source p` : the source is read again, and the compiler is looked for;
* `Build`, `Builds s source b` : the compiler is launched, and the result is noted;
* `compile_eq_ok` : the engine after a compilation, for a file that is no source, for a compiler
  that is missing and for a compiler that was launched.

`Prepares` and `Builds` speak of the setup and the source alone. What the engine held before goes
through unchanged, apart from the diagnostics of the source and the last compilation.
-/

namespace Workbench

/-- The diagnostics that a compilation is to leave: none after a success. -/
def Compilation.findings (c : Compilation) : List Diagnostic :=
  if c.succeeded then [] else Diagnostic.extract Diagnostic.Shape.all c.diagnosticText

namespace OutputLog

/-- The lines of several texts. -/
def linesOf (texts : List String) : OutputLog := texts.flatMap Text.splitLines

theorem foldl_append (texts : List String) (log : OutputLog) :
    texts.foldl append log = log ++ linesOf texts := by
  induction texts generalizing log with
  | nil => exact (List.append_nil log).symm
  | cons text texts ih =>
    rw [List.foldl_cons, ih, append, linesOf, linesOf, List.flatMap_cons, List.append_assoc]

end OutputLog

namespace Session

theorem foldl_say (texts : List String) (s : Session) :
    texts.foldl say s = { s with output := s.output ++ OutputLog.linesOf texts } := by
  have hfold : texts.foldl say s = { s with output := texts.foldl OutputLog.append s.output } := by
    induction texts generalizing s with
    | nil => rfl
    | cons text texts ih => exact ih (s.say text)
  rw [hfold, OutputLog.foldl_append]

/-- The session with the text of its source, if that could be read. -/
def reread (s : Session) : Option String → Session
  | some code => s.load code
  | none => s

end Session

namespace Engine

/-! ## The small steps -/

/-- A line in the log file, as work on the setup. -/
def noteOn (text : String) : Action Setup Unit := fun s =>
  Setup.onMachine (Machine.appendText logFile (logLine s.machine.clock text)) s

theorem change_apply (f : Session → Session) (e : Engine) :
    change f e = (.ok (), { e with session := f e.session }) := rfl

theorem say_apply (text : String) (e : Engine) :
    say text e = (.ok (), { e with session := e.session.say text }) := rfl

theorem sayAll_apply (texts : List String) (e : Engine) :
    sayAll texts e = (.ok (), { e with session := texts.foldl Session.say e.session }) := rfl

theorem onSetup_eq_ok {α : Type} {a : Action Setup α} {e e' : Engine} {x : α} :
    onSetup a e = (.ok x, e') ↔ ∃ s, a e.setup = (.ok x, s) ∧ e' = { e with setup := s } := by
  have h : onSetup a e = ((a e.setup).1, { e with setup := (a e.setup).2 }) := rfl
  rw [h]
  constructor
  · intro he
    obtain ⟨hr, rfl⟩ := Prod.mk.inj he
    exact ⟨_, Prod.ext hr rfl, rfl⟩
  · rintro ⟨s, hs, rfl⟩
    rw [hs]

theorem note_eq_ok {text : String} {e e' : Engine} {u : Unit} :
    note text e = (.ok u, e') ↔ ∃ s, noteOn text e.setup = (.ok (), s) ∧ e' = { e with setup := s } :=
  onSetup_eq_ok (a := noteOn text)

/-- The engine after its session was shown. -/
def shown (e : Engine) : Engine :=
  let session := { e.session with lastUpdate := e.setup.machine.clock }
  { e with session, updates := e.updates ++ [session] }

theorem publish_apply (e : Engine) : publish e = (.ok (), e.shown) := rfl

theorem finish_apply (status : String) (e : Engine) :
    finish status e = (.ok (), shown { e with session := { e.session with status } }) := rfl

/-- The engine after a command for a file that is no source. -/
def refused (e : Engine) : Engine :=
  shown { e with session := { e.session.say "❌ Not a CPLE file" with status := "not a CPLE file" } }

theorem refuse_apply (e : Engine) : refuse e = (.ok (), e.refused) := rfl

/-! ## Before the launch -/

/-- Reads a source again, as work on the setup. There is no text if the system refuses that. -/
def reread (path : String) : Action Setup (Option String) := fun s =>
  match s.machine.readText path with
  | .ok code => (.ok (some code), s)
  | .error (.os x) => (noteOn ("Could not read source: " ++ x.message) >>= fun _ => pure none) s
  | .error x => (.error x, s)

theorem reload_eq_ok {e e' : Engine} {u : Unit} :
    reload e = (.ok u, e') ↔ ∃ code s, reread e.session.path e.setup = (.ok code, s) ∧
      e' = { e with setup := s, session := e.session.reread code } := by
  unfold reload reread
  rw [Action.bind_eq_of_ok (Action.get_apply e)]
  cases e.setup.machine.readText e.session.path with
  | ok code =>
    dsimp only
    rw [change_apply]
    constructor
    · intro h
      exact ⟨some code, e.setup, rfl, (Prod.mk.inj h).2.symm⟩
    · rintro ⟨code', s, hs, rfl⟩
      obtain ⟨hcode, rfl⟩ := Prod.mk.inj hs
      obtain rfl := Except.ok.inj hcode
      rfl
  | error x =>
    cases x with
    | os x =>
      dsimp only
      rw [note_eq_ok]
      constructor
      · rintro ⟨s, hs, rfl⟩
        exact ⟨none, s, Action.bind_eq_ok.2 ⟨(), s, hs, rfl⟩, rfl⟩
      · rintro ⟨code, s, hs, rfl⟩
        obtain ⟨_, t, hnote, hpure⟩ := Action.bind_eq_ok.1 hs
        obtain ⟨hcode, rfl⟩ := Prod.mk.inj hpure
        obtain rfl := Except.ok.inj hcode
        exact ⟨t, hnote, rfl⟩
    | _ =>
      constructor
      · intro h
        exact absurd (congrArg Prod.fst h) (by simp)
      · rintro ⟨code, s, hs, -⟩
        exact absurd (congrArg Prod.fst hs) (by simp)

/-- What is known before the compiler is launched. -/
structure Prepared where
  /-- the text of the source, if it could be read -/
  code : Option String
  setup : Setup
  compiler : Path
  /-- whether there is something at the path of the compiler -/
  found : Bool

/-- The preparation of a compilation comes to this. -/
structure Prepares (s : Setup) (source : String) (p : Prepared) : Prop where
  isSource : isSource source = true
  reread : reread source s = (.ok p.code, p.setup)
  compiler : Compiler.resolve p.setup = .ok p.compiler
  found : p.setup.machine.pathExists p.compiler.text = .ok p.found

theorem Prepares.unique {s : Setup} {source : String} {p q : Prepared} (hp : Prepares s source p)
    (hq : Prepares s source q) : p = q := by
  obtain ⟨code, setup, compiler, found⟩ := p
  obtain ⟨code', setup', compiler', found'⟩ := q
  obtain ⟨hcode, rfl⟩ := Prod.mk.inj (hp.reread.symm.trans hq.reread)
  obtain rfl := Except.ok.inj hcode
  obtain rfl := Except.ok.inj (hp.compiler.symm.trans hq.compiler)
  obtain rfl := Except.ok.inj (hp.found.symm.trans hq.found)
  rfl

/-! ## The launch -/

/-- A compilation and the setups that it goes through. -/
structure Build where
  words : List Text.CodePoints
  /-- the setup after the launch was announced -/
  announced : Setup
  compilation : Compilation
  compiled : Setup
  /-- the setup after the result was noted -/
  reported : Setup

/-- What is noted about a compilation. -/
def reportText (c : Compilation) : String :=
  if c.succeeded then "Compile succeeded in " ++ showSeconds c.seconds ++ "s"
  else "Compile failed in " ++ showSeconds c.seconds ++ "s with " ++ toString c.findings.length ++
    " diagnostics"

/-- The launch of the compiler comes to this. -/
structure Builds (s : Setup) (source : String) (b : Build) : Prop where
  words : Compiler.command s source = .ok b.words
  announced : noteOn ("Compiling " ++ source ++ ": " ++ Text.quotedList b.words) s =
    (.ok (), b.announced)
  compiled : Compiler.compile source b.announced = (.ok b.compilation, b.compiled)
  reported : noteOn (reportText b.compilation) b.compiled = (.ok (), b.reported)

theorem Builds.unique {s : Setup} {source : String} {b c : Build} (hb : Builds s source b)
    (hc : Builds s source c) : b = c := by
  obtain ⟨words, announced, compilation, compiled, reported⟩ := b
  obtain ⟨words', announced', compilation', compiled', reported'⟩ := c
  obtain rfl := Except.ok.inj (hb.words.symm.trans hc.words)
  obtain rfl := (Prod.mk.inj (hb.announced.symm.trans hc.announced)).2
  obtain ⟨hcompilation, rfl⟩ := Prod.mk.inj (hb.compiled.symm.trans hc.compiled)
  obtain rfl := Except.ok.inj hcompilation
  obtain rfl := (Prod.mk.inj (hb.reported.symm.trans hc.reported)).2
  rfl

/-- What the log says about the result of a compilation. -/
def reportTexts (c : Compilation) : List String :=
  if c.succeeded then
    ["✅ Compilation Successful!\n"] ++
      (if Text.trimmed c.output ≠ "" then ["Compiler Output:", c.output] else []) ++
      ["\n⏱️  Completed in " ++ showSeconds c.seconds ++ "s"]
  else ["❌ Compilation Failed!\n", "Error Output:", c.diagnosticText]

/-- What the log says about a launch and its result. -/
def Build.texts (b : Build) : List String :=
  ("$ " ++ Shell.line b.words ++ "\n") :: reportTexts b.compilation

/-- The status after a compilation. -/
def statusText (c : Compilation) : String :=
  (if c.succeeded then "compiled (" else "failed (") ++ showSeconds c.seconds ++ "s)"

/-- The session after a compilation. -/
def Build.session (b : Build) (s : Session) : Session :=
  let c := b.compilation
  let kept := Record.erase s.collection s.path
  { s with
    collection := if c.findings = [] then kept else Record.put kept s.path c.findings
    output := s.output ++ OutputLog.linesOf b.texts
    lastCompilation := some c
    status := statusText c
    lastUpdate := b.reported.machine.clock }

/-- The engine after a compilation. -/
def Build.engine (b : Build) (e : Engine) : Engine :=
  { e with
    setup := b.reported
    session := b.session e.session
    updates := e.updates ++ [b.session e.session] }

theorem note_finish_eq_ok {text status : String} {e e' : Engine} {u : Unit} :
    (note text >>= fun _ => finish status) e = (.ok u, e') ↔
      ∃ s, noteOn text e.setup = (.ok (), s) ∧
        e' = shown { e with setup := s, session := { e.session with status } } := by
  rw [Action.bind_eq_ok]
  constructor
  · rintro ⟨_, t, hnote, hfinish⟩
    obtain ⟨s, hs, rfl⟩ := note_eq_ok.1 hnote
    rw [finish_apply] at hfinish
    exact ⟨s, hs, (Prod.mk.inj hfinish).2.symm⟩
  · rintro ⟨s, hs, rfl⟩
    exact ⟨(), _, note_eq_ok.2 ⟨s, hs, rfl⟩, finish_apply status _⟩

theorem reportSuccess_eq {c : Compilation} (hc : c.succeeded = true) :
    reportSuccess c = sayAll (reportTexts c) >>= fun _ => note (reportText c) >>= fun _ =>
      finish (statusText c) := by
  unfold reportSuccess reportTexts reportText statusText
  simp only [if_pos hc]
  by_cases ho : Text.trimmed c.output ≠ ""
  · simp only [if_pos ho]
    rfl
  · simp only [if_neg ho]
    rfl

/-- The two reports differ in their texts and in what they file. -/
theorem report_eq_ok {source : String} {c : Compilation} {e e' : Engine} {u : Unit} :
    (if c.succeeded then reportSuccess c else reportFailure source c) e = (.ok u, e') ↔
      ∃ s, noteOn (reportText c) e.setup = (.ok (), s) ∧
        e' = shown { e with
          setup := s
          session := { e.session with
            collection := if c.findings = [] then e.session.collection
              else Record.put e.session.collection source c.findings
            output := e.session.output ++ OutputLog.linesOf (reportTexts c)
            status := statusText c } } := by
  by_cases hc : c.succeeded = true
  · have hnone : c.findings = [] := if_pos hc
    rw [if_pos hc, reportSuccess_eq hc, Action.bind_eq_of_ok (sayAll_apply _ e), note_finish_eq_ok,
      Session.foldl_say, if_pos hnone]
  · have hfindings : Diagnostic.extract Diagnostic.Shape.all c.diagnosticText = c.findings :=
      (if_neg hc).symm
    have htexts : reportTexts c = ["❌ Compilation Failed!\n", "Error Output:", c.diagnosticText] :=
      if_neg hc
    have hreport : reportText c = "Compile failed in " ++ showSeconds c.seconds ++ "s with " ++
        toString c.findings.length ++ " diagnostics" := if_neg hc
    have hstatus : statusText c = "failed (" ++ showSeconds c.seconds ++ "s)" := by
      rw [statusText, if_neg hc]
    rw [if_neg hc, reportFailure, ← htexts, Action.bind_eq_of_ok (sayAll_apply _ e),
      Action.bind_eq_of_ok (Action.get_apply _), Session.foldl_say]
    dsimp only [Session.publish, Collection.publish]
    rw [Action.bind_eq_of_ok (Action.set_apply _ _), hfindings, ← hreport, ← hstatus,
      note_finish_eq_ok]

/-- The report and the answer at the end of a build. -/
theorem answer_eq_ok {source : String} {c : Compilation} {e e' : Engine} {r : Bool} :
    ((if c.succeeded then reportSuccess c else reportFailure source c) >>= fun _ =>
        pure c.succeeded) e = (.ok r, e') ↔
      r = c.succeeded ∧ (if c.succeeded then reportSuccess c else reportFailure source c) e =
        (.ok (), e') := by
  rw [Action.bind_eq_ok]
  constructor
  · rintro ⟨_, t, hreport, hpure⟩
    obtain ⟨hr, rfl⟩ := Prod.mk.inj hpure
    exact ⟨(Except.ok.inj hr).symm, hreport⟩
  · rintro ⟨rfl, hreport⟩
    exact ⟨(), e', hreport, rfl⟩

theorem Build.output_eq (b : Build) (log : OutputLog) :
    log.append ("$ " ++ Shell.line b.words ++ "\n") ++ OutputLog.linesOf (reportTexts b.compilation) =
      log ++ OutputLog.linesOf b.texts := by
  rw [OutputLog.append, List.append_assoc]
  rfl

theorem build_eq_ok {e e' : Engine} {r : Bool} :
    build e.session.path e = (.ok r, e') ↔
      ∃ b, Builds e.setup e.session.path b ∧ r = b.compilation.succeeded ∧ e' = b.engine e := by
  have hbranch : ∀ c : Compilation,
      (if c.succeeded = true then reportSuccess c >>= fun _ => pure c.succeeded
        else reportFailure e.session.path c >>= fun _ => pure c.succeeded) =
      (if c.succeeded then reportSuccess c else reportFailure e.session.path c) >>= fun _ =>
        (pure c.succeeded : Action Engine Bool) := by
    intro c
    split <;> rfl
  unfold build
  rw [Action.bind_eq_of_ok (change_apply _ e), Action.bind_eq_ok]
  constructor
  · rintro ⟨words, _, hask, h⟩
    obtain ⟨hwords, rfl⟩ := Prod.mk.inj hask
    rw [Action.bind_eq_of_ok (say_apply _ _)] at h
    obtain ⟨_, _, hnote, h⟩ := Action.bind_eq_ok.1 h
    obtain ⟨announced, hannounced, rfl⟩ := note_eq_ok.1 hnote
    obtain ⟨c, _, hcompile, h⟩ := Action.bind_eq_ok.1 h
    obtain ⟨compiled, hcompiled, rfl⟩ := onSetup_eq_ok.1 hcompile
    rw [Action.bind_eq_of_ok (change_apply _ _)] at h
    obtain ⟨hr, hreport⟩ := answer_eq_ok.1 ((congrFun (hbranch c) _).symm.trans h)
    obtain ⟨reported, hreported, rfl⟩ := report_eq_ok.1 hreport
    refine ⟨⟨words, announced, c, compiled, reported⟩,
      ⟨hwords, hannounced, hcompiled, hreported⟩, hr, ?_⟩
    unfold Build.engine Build.session
    rw [← Build.output_eq]
    rfl
  · rintro ⟨⟨words, announced, c, compiled, reported⟩, ⟨hwords, hannounced, hcompiled, hreported⟩,
      rfl, rfl⟩
    refine ⟨words, _, Prod.ext hwords rfl, ?_⟩
    rw [Action.bind_eq_of_ok (say_apply _ _)]
    refine Action.bind_eq_ok.2 ⟨(), _, note_eq_ok.2 ⟨announced, hannounced, rfl⟩, ?_⟩
    refine Action.bind_eq_ok.2 ⟨c, _, onSetup_eq_ok.2 ⟨compiled, hcompiled, rfl⟩, ?_⟩
    rw [Action.bind_eq_of_ok (change_apply _ _)]
    refine (congrFun (hbranch c) _).trans (answer_eq_ok.2 ⟨rfl, ?_⟩)
    refine report_eq_ok.2 ⟨reported, hreported, ?_⟩
    unfold Build.engine Build.session
    rw [← Build.output_eq]
    rfl

/-! ## A whole compilation -/

/-- The engine when there is no compiler, after that was noted. -/
def missing (e : Engine) (p : Prepared) (s : Setup) : Engine :=
  shown { e with
    setup := s
    session := { (e.session.reread p.code).say ("❌ Error: " ++ Compiler.missingText p.compiler) with
      status := "compiler missing" } }

theorem reportMissing_eq_ok {compiler : Path} {e e' : Engine} {u : Unit} :
    reportMissing compiler e = (.ok u, e') ↔
      ∃ s, noteOn (Compiler.missingText compiler) e.setup = (.ok (), s) ∧
        e' = shown { e with
          setup := s
          session := { e.session.say ("❌ Error: " ++ Compiler.missingText compiler) with
            status := "compiler missing" } } := by
  unfold reportMissing
  rw [Action.bind_eq_of_ok (say_apply _ e), setStatus, Action.bind_eq_of_ok (change_apply _ _),
    Action.bind_eq_ok]
  constructor
  · rintro ⟨_, t, hnote, hpublish⟩
    obtain ⟨s, hs, rfl⟩ := note_eq_ok.1 hnote
    rw [publish_apply] at hpublish
    exact ⟨s, hs, (Prod.mk.inj hpublish).2.symm⟩
  · rintro ⟨s, hs, rfl⟩
    exact ⟨(), _, note_eq_ok.2 ⟨s, hs, rfl⟩, publish_apply _⟩

/-- How a compilation can end with an answer. -/
inductive Compiles (e : Engine) : Bool → Engine → Prop
  | refused (h : isSource e.session.path = false) : Compiles e false e.refused
  | missing {p s} (h : Prepares e.setup e.session.path p) (hfound : p.found = false)
      (hnote : noteOn (Compiler.missingText p.compiler) p.setup = (.ok (), s)) :
      Compiles e false (e.missing p s)
  | built {p b} (h : Prepares e.setup e.session.path p) (hfound : p.found = true)
      (hb : Builds p.setup e.session.path b) :
      Compiles e b.compilation.succeeded
        (b.engine { e with setup := p.setup, session := e.session.reread p.code })

@[simp] theorem path_reread (s : Session) (code : Option String) : (s.reread code).path = s.path := by
  cases code <;> rfl

theorem build_reread_eq_ok {e e' : Engine} {s : Setup} {code : Option String} {r : Bool} :
    build e.session.path { e with setup := s, session := e.session.reread code } = (.ok r, e') ↔
      ∃ b, Builds s e.session.path b ∧ r = b.compilation.succeeded ∧
        e' = b.engine { e with setup := s, session := e.session.reread code } := by
  have h := @build_eq_ok { e with setup := s, session := e.session.reread code } e' r
  have hpath : (e.session.reread code).path = e.session.path := path_reread e.session code
  dsimp only at h
  rwa [hpath] at h

/-- After its preparation, a compilation only depends on whether the compiler was found. -/
theorem compile_of_prepares {e : Engine} {p : Prepared}
    (h : Prepares e.setup e.session.path p) :
    compile e =
      (if p.found then build e.session.path
        else reportMissing p.compiler >>= fun _ => pure false)
        { e with setup := p.setup, session := e.session.reread p.code } := by
  let e₁ : Engine := { e with setup := p.setup, session := e.session.reread p.code }
  have hreload : reload e = (.ok (), e₁) := reload_eq_ok.2 ⟨p.code, p.setup, h.reread, rfl⟩
  have hresolve : askSetup Compiler.resolve e₁ = (.ok p.compiler, e₁) := Prod.ext h.compiler rfl
  have hexists : askSetup (fun s => s.machine.pathExists p.compiler.text) e₁ = (.ok p.found, e₁) :=
    Prod.ext h.found rfl
  unfold compile
  rw [Action.bind_eq_of_ok (Action.get_apply e), if_pos h.isSource, Action.bind_eq_of_ok hreload,
    Action.bind_eq_of_ok hresolve, Action.bind_eq_of_ok hexists]

/-- A compilation of a source that comes to an end got through its preparation. -/
theorem exists_prepares {e e' : Engine} {r : Bool} (hsource : isSource e.session.path = true)
    (h : compile e = (.ok r, e')) : ∃ p, Prepares e.setup e.session.path p := by
  unfold compile at h
  rw [Action.bind_eq_of_ok (Action.get_apply e), if_pos hsource] at h
  obtain ⟨_, _, hreload, h⟩ := Action.bind_eq_ok.1 h
  obtain ⟨code, s, hs, rfl⟩ := reload_eq_ok.1 hreload
  obtain ⟨compiler, _, hask, h⟩ := Action.bind_eq_ok.1 h
  obtain ⟨hcompiler, rfl⟩ := Prod.mk.inj hask
  obtain ⟨found, _, hask', -⟩ := Action.bind_eq_ok.1 h
  obtain ⟨hfound, rfl⟩ := Prod.mk.inj hask'
  exact ⟨⟨code, s, compiler, found⟩, hsource, hs, hcompiler, hfound⟩

/-- A compilation that comes to an end does what `Compiles` says, and nothing else. -/
theorem compile_eq_ok {e e' : Engine} {r : Bool} : compile e = (.ok r, e') ↔ Compiles e r e' := by
  constructor
  · intro h
    by_cases hsource : isSource e.session.path = true
    · obtain ⟨p, hp⟩ := exists_prepares hsource h
      rw [compile_of_prepares hp] at h
      cases hfound : p.found with
      | false =>
        rw [hfound, if_neg Bool.false_ne_true] at h
        obtain ⟨_, _, hmissing, hpure⟩ := Action.bind_eq_ok.1 h
        obtain ⟨t, ht, rfl⟩ := reportMissing_eq_ok.1 hmissing
        obtain ⟨hr, rfl⟩ := Prod.mk.inj hpure
        obtain rfl := Except.ok.inj hr
        exact .missing hp hfound ht
      | true =>
        rw [hfound, if_pos rfl] at h
        obtain ⟨b, hb, rfl, rfl⟩ := build_reread_eq_ok.1 h
        exact .built hp hfound hb
    · unfold compile at h
      rw [Action.bind_eq_of_ok (Action.get_apply e), if_neg hsource,
        Action.bind_eq_of_ok (refuse_apply e)] at h
      obtain ⟨hr, rfl⟩ := Prod.mk.inj h
      obtain rfl := Except.ok.inj hr
      exact .refused (by simpa using hsource)
  · intro h
    cases h with
    | refused h =>
      unfold compile
      rw [Action.bind_eq_of_ok (Action.get_apply e), if_neg (by simp [h]),
        Action.bind_eq_of_ok (refuse_apply e)]
      rfl
    | @missing p s h hfound hnote =>
      rw [compile_of_prepares h, hfound, if_neg Bool.false_ne_true]
      exact Action.bind_eq_ok.2 ⟨(), _, reportMissing_eq_ok.2 ⟨s, hnote, rfl⟩, rfl⟩
    | @built p b h hfound hb =>
      rw [compile_of_prepares h, hfound, if_pos rfl]
      exact build_reread_eq_ok.2 ⟨b, hb, rfl, rfl⟩

end Engine

end Workbench
