import Workbench.Proofs.Compiler.Arguments
import Workbench.Proofs.Engine.Updates

/-!
# Announced launches

A compilation says in the log what it is going to launch, and then looks for the compiler once more.
In between it writes a line to the log file.

* `command_of_joined` : typed words are given to the compiler as they are;
* `Continues e e'` : nothing was launched, and the log goes on;
* `NamesNewLog s p` : the configured compiler is the log file, which is still to be made;
* `Sends` : a launch, from its announcement on;
* `announced_words` : what is announced can be read back, and it is what is launched unless the
  announcement makes the configured compiler.
-/

namespace Workbench

/-! ## Typed arguments -/

namespace Compiler

/-- The words of the arguments are given to the compiler as they were before they were typed. -/
theorem command_of_joined {s : Setup} {words : List Text.CodePoints}
    (h : s.settings.value "compiler_args" = .text (Shell.join words)) (source : String) :
    command s source = (resolve s).map fun compiler =>
      Text.CodePoints.ofString compiler.text :: Text.CodePoints.ofString source :: words := by
  have hwords : arguments s.settings = .ok words :=
    (arguments_eq_ok_of_text h).2 (Shell.split_join words)
  unfold command
  cases resolve s with
  | error failure => rfl
  | ok compiler =>
    dsimp only
    rw [hwords]
    rfl

end Compiler

namespace Engine

open Workbench.Action (Ensures)
open Artifact (Candidate)
open Machine (Launch)
open Text (CodePoints)

/-! ## Work in which the log goes on -/

/-- Nothing was launched, and the log goes on. -/
structure Continues (e e' : Engine) : Prop where
  launched : e'.launched = e.launched
  output : e.session.output <+: e'.session.output

theorem overlooks_continues : Overlooks Continues where
  refl _ := ⟨rfl, List.prefix_rfl⟩
  trans h h' := ⟨h'.launched.trans h.launched, h.output.trans h'.output⟩
  said e texts := by
    rw [Session.foldl_say]
    exact ⟨rfl, List.prefix_append _ _⟩
  noted e s h := by
    obtain ⟨d, -, rfl⟩ := h
    exact ⟨rfl, List.prefix_rfl⟩

theorem continues_finish (status : String) : Ensures Continues (finish status) :=
  fun _ => ⟨rfl, List.prefix_rfl⟩

theorem continues_note_finish (text status : String) :
    Ensures Continues (note text >>= fun _ => finish status) :=
  (overlooks_continues.ensures_note text).bind overlooks_continues.trans fun _ =>
    continues_finish status

theorem continues_reportSuccess {c : Compilation} (hc : c.succeeded = true) :
    Ensures Continues (reportSuccess c) := by
  have h := overlooks_continues
  rw [reportSuccess_eq hc]
  exact (h.ensures_sayAll _).bind h.trans fun _ => continues_note_finish _ _

theorem continues_reportFailure (source : String) (c : Compilation) :
    Ensures Continues (reportFailure source c) := by
  have h := overlooks_continues
  refine (h.ensures_sayAll _).bind h.trans fun _ e => ?_
  rw [Action.bind_eq_of_ok (Action.get_apply e)]
  -- filing diagnostics is no work on the log
  have hset : Continues e { e with session := (e.session.publish source c.diagnosticText).1 } :=
    ⟨rfl, List.prefix_rfl⟩
  refine Action.bind_ensures h.trans hset fun _ t _ => ?_
  exact continues_note_finish _ _ t

/-- What follows the launch of the compiler. -/
theorem continues_report (source : String) (c : Compilation) :
    Ensures Continues (do
      change fun s => { s with lastCompilation := some c }
      if c.succeeded then reportSuccess c else reportFailure source c
      return c.succeeded : Action Engine Bool) := by
  have h := overlooks_continues
  refine Ensures.bind h.trans (fun _ => ⟨rfl, List.prefix_rfl⟩) fun _ => ?_
  split
  · next hc => exact (continues_reportSuccess hc).bind h.trans fun _ => h.ensures_pure _
  · exact (continues_reportFailure source c).bind h.trans fun _ => h.ensures_pure _

theorem continues_of_launch (source : String) (e : Engine) :
    Continues (onSetup (Compiler.compile source) e).2
      ((do
        let c ← onSetup (Compiler.compile source)
        change fun s => { s with lastCompilation := some c }
        if c.succeeded then reportSuccess c else reportFailure source c
        return c.succeeded : Action Engine Bool) e).2 :=
  Action.after_bind_ensures overlooks_continues.refl (continues_report source) e

/-! ## Launches -/

/-- The configured compiler is the log file, which is still to be made. -/
structure NamesNewLog (s : Setup) (c : Candidate) : Prop where
  configured : Compiler.configured? s.settings = .ok (some c)
  asks : c.Asks
  leads : Machine.LeadsToNothing s.machine c.path.text logPlace

/-- The log file is the configured compiler if that is there only after a line was written. -/
theorem namesNewLog_iff {text : String} {s t : Setup} {u : Unit} {c : Candidate}
    {before after : Bool} (h : noteOn text s = (.ok u, t))
    (hc : Compiler.configured? s.settings = .ok (some c))
    (hbefore : c.exists? s.machine = .ok before) (hafter : c.exists? t.machine = .ok after) :
    (∃ d, NamesNewLog s d) ↔ before = false ∧ after = true := by
  obtain ⟨hlog, content, rfl⟩ := withDisk_of_noteOn h
  have hmade : ∀ {d : Candidate}, d.Asks → s.machine.pathExists d.path.text = .ok false →
      (d.exists? (s.withDisk (s.machine.disk.put logPlace (.file content))).machine = .ok true ↔
        Machine.LeadsToNothing s.machine d.path.text logPlace) := by
    intro d hasks hnot
    rw [Candidate.exists?_of_asks hasks]
    exact Machine.pathExists_put_iff (by decide) hlog.noDirectory hnot
  constructor
  · rintro ⟨d, hd⟩
    obtain rfl := Option.some.inj (Except.ok.inj (hc.symm.trans hd.configured))
    have hnot := hd.leads.pathExists
    rw [Candidate.exists?_of_asks hd.asks] at hbefore
    exact ⟨Except.ok.inj (hbefore.symm.trans hnot),
      Except.ok.inj (hafter.symm.trans ((hmade hd.asks hnot).2 hd.leads))⟩
  · rintro ⟨rfl, rfl⟩
    have hasks := Candidate.asks_of_exists? hafter
    rw [Candidate.exists?_of_asks hasks] at hbefore
    exact ⟨c, hc, hasks, (hmade hasks hbefore).1 hafter⟩

/-- The search for the compiler comes to the same one again, unless the line that was written made
the configured one. -/
theorem resolve_noteOn_iff {text : String} {s t : Setup} {u : Unit} {compiler compiler' : Path}
    (h : noteOn text s = (.ok u, t)) (hbefore : LooksFor s compiler true)
    (hafter : LooksFor t compiler' true) :
    compiler.text = compiler'.text ↔ ¬ ∃ c, NamesNewLog s c := by
  have hsettings : t.settings = s.settings := (noted_of_noteOn h).settings
  have hcompiler := hbefore.resolved
  have hcompiler' := hafter.resolved
  cases hconfigured : Compiler.configured? s.settings with
  | error failure =>
    rw [resolve_of_failure hconfigured] at hcompiler
    exact nomatch hcompiler
  | ok configured =>
    have hconfigured' : Compiler.configured? t.settings = .ok configured := by
      rw [hsettings, hconfigured]
    cases configured with
    | none =>
      rw [resolve_of_unconfigured hconfigured] at hcompiler
      rw [resolve_of_unconfigured hconfigured'] at hcompiler'
      obtain rfl := Except.ok.inj (hcompiler.symm.trans hcompiler')
      refine ⟨?_, fun _ => rfl⟩
      rintro - ⟨c, hc⟩
      exact nomatch hconfigured.symm.trans hc.configured
    | some c =>
      obtain ⟨there, hthere⟩ := exists_of_resolve hconfigured hbefore.resolved
      obtain ⟨there', hthere'⟩ := exists_of_resolve hconfigured' hafter.resolved
      rw [resolve_of_configured hconfigured hthere] at hcompiler
      rw [resolve_of_configured hconfigured' hthere'] at hcompiler'
      obtain rfl := Except.ok.inj hcompiler
      obtain rfl := Except.ok.inj hcompiler'
      rw [namesNewLog_iff h hconfigured hthere hthere']
      cases there with
      | true =>
        -- what was there before the line was written is there after it
        obtain ⟨d, hd, rfl⟩ := noted_of_noteOn h
        obtain ⟨after, hafter', hmore⟩ :=
          Candidate.exists?_withDisk hd (withDisk_of_noteOn h).1.noDirectory hthere
        obtain rfl := Except.ok.inj (hafter'.symm.trans hthere')
        rw [hmore rfl]
        simp
      | false =>
        cases there' with
        | false => simp
        | true =>
          have hne : Compiler.bundled.text ≠ c.path.text := by
            intro heq
            have hfound : s.machine.pathExists Compiler.bundled.text = .ok true := hbefore.asked
            rw [heq, ← Candidate.exists?_of_asks (Candidate.asks_of_exists? hthere'), hthere]
              at hfound
            exact nomatch hfound
          simpa using hne

/-- A launch, from its announcement on: the words that are announced, what the log says of them, what
is launched, and when that is what the log says. -/
structure Sends (e : Engine) (typed : List CodePoints) (l : Launch) (e' : Engine) : Prop where
  command : Compiler.command (reload e).2.setup e.session.path = .ok typed
  output : e.session.output.append ("$ " ++ Shell.line typed ++ "\n") <+: e'.session.output
  readable : (∀ w ∈ typed, ∀ c ∈ w, c.isHalf = false) →
    CodePoints.ofString (Shell.line typed) = Shell.join typed
  launched : e'.launched = e.launched ++ [l]
  same : Shell.split (Shell.join typed) = .ok l.command ↔ ¬ ∃ c, NamesNewLog (reload e).2.setup c

theorem output_announced (e : Engine) (p : Prepared) (typed : List CodePoints) (t : Setup) :
    (e.announced p typed t).session.output =
      e.session.output.append ("$ " ++ Shell.line typed ++ "\n") := by
  have hreread : (e.session.reread p.code).output = e.session.output := by
    cases p.code <;> rfl
  show (e.session.reread p.code).output.append _ = _
  rw [hreread]

/-- The launch is all that is done from the announcement to the report. -/
theorem continues_announced {e : Engine} {p : Prepared} {typed launched : List CodePoints} {t : Setup}
    (hp : Prepares e.setup e.session.path p) (hfound : p.found = true)
    (h : Announces e.setup e.session.path p typed t launched) :
    Continues { e.announced p typed t with
        setup := { t with
          machine := (t.machine.launch
            (Compiler.compilerLaunch t.settings e.session.path launched)).2 } }
      (Engine.compile e).2 := by
  obtain ⟨compiler, hlook⟩ := h.found
  rw [← Compiler.setup_compile hlook.resolved hlook.asked h.words,
    compile_of_announced hp hfound h.command h.noted]
  exact continues_of_launch e.session.path (e.announced p typed t)

/-- What was announced is launched with the compiler that is found then. -/
theorem sends_of_announces {e : Engine} {p : Prepared} {typed launched : List CodePoints} {t : Setup}
    (hp : Prepares e.setup e.session.path p) (hfound : p.found = true)
    (h : Announces e.setup e.session.path p typed t launched)
    (hmore : (Engine.compile e).2.launched ≠ e.launched) :
    ∃ l, Sends e typed l (Engine.compile e).2 := by
  have hreload : (reload e).2.setup = p.setup := by
    rw [(reload_eq_ok (u := ())).2 ⟨p.code, p.setup, hp.reread, rfl⟩]
  have hnoted : Noted p.setup t := noted_of_noteOn h.noted
  have hlaunches : t.machine.launches = e.setup.machine.launches :=
    hnoted.launches.trans hp.noted.launches
  have hrest := continues_announced hp hfound h
  let l := Compiler.compilerLaunch t.settings e.session.path launched
  have hstarted : (t.machine.launch l).2 = t.machine.started l := by
    refine (Machine.launch_started_or_same t.machine l).resolve_right fun hsame => hmore ?_
    refine hrest.launched.trans ?_
    show (t.machine.launch l).2.launches = _
    rw [hsame]
    exact hlaunches
  refine ⟨l, hreload.symm ▸ h.command, ?_, Shell.ofString_line, ?_, ?_⟩
  · rw [← output_announced e p typed t]
    exact hrest.output
  · refine hrest.launched.trans ?_
    show (t.machine.launch l).2.launches = e.setup.machine.launches ++ [l]
    rw [hstarted, ← hlaunches]
    rfl
  · have hlook : LooksFor p.setup p.compiler true := ⟨hp.compiler, hfound ▸ hp.found⟩
    obtain ⟨compiler, hlook'⟩ := h.found
    have htyped := h.command
    have hwords := h.words
    rw [command_of_resolve hlook.resolved] at htyped
    rw [command_of_resolve hlook'.resolved, hnoted.settings] at hwords
    rw [hreload, ← resolve_noteOn_iff h.noted hlook hlook', Shell.split_join]
    cases harguments : Compiler.arguments p.setup.settings with
    | error failure =>
      rw [harguments] at htyped
      exact nomatch htyped
    | ok words =>
      rw [harguments] at htyped hwords
      obtain rfl := Except.ok.inj htyped
      obtain rfl := Except.ok.inj hwords
      show _ = Except.ok (CodePoints.ofString compiler.text :: _ :: words) ↔ _
      simp [CodePoints.ofString_inj]

/-- Without words for it nothing is launched, and neither is where the log file cannot be written. -/
theorem launched_of_unannounced {e : Engine} {p : Prepared} (hp : Prepares e.setup e.session.path p)
    (hfound : p.found = true)
    (h : ∀ typed t, Compiler.command p.setup e.session.path = .ok typed →
      noteOn ("Compiling " ++ e.session.path ++ ": " ++ Text.quotedList typed) p.setup ≠
        (.ok (), t)) : (Engine.compile e).2.launched = e.launched := by
  have hmore := overlooks_continues
  suffices hlog : Continues (e.compiling p) (Engine.compile e).2 from
    hlog.launched.trans hp.noted.launches
  rw [compile_of_prepares hp, hfound, if_pos rfl]
  unfold build
  rw [Action.bind_eq_of_ok (change_apply _ _)]
  refine Action.bind_ensures hmore.trans (hmore.refl _) fun typed e₁ hask => ?_
  obtain ⟨htyped, rfl⟩ := Prod.mk.inj hask
  refine Action.bind_ensures hmore.trans (hmore.ensures_say _ _) fun _ e₂ hsay => ?_
  rw [say_apply] at hsay
  obtain ⟨-, rfl⟩ := Prod.mk.inj hsay
  refine Action.bind_ensures hmore.trans (hmore.ensures_note _ _) fun _ e₃ hnote => ?_
  obtain ⟨t, ht, -⟩ := note_eq_ok.1 hnote
  exact absurd ht (h typed t htyped)

/-- A compilation that launches something has announced it. -/
theorem exists_sends {e : Engine} (h : (Engine.compile e).2.launched ≠ e.launched) :
    ∃ typed l, Sends e typed l (Engine.compile e).2 := by
  have hinvokes : Invokes e.setup e.session.path :=
    Classical.byContradiction fun hnot => h (stays_of_compile hnot).launched
  obtain ⟨p, hp, hfound⟩ := hinvokes
  have hannounced : ∃ typed t, Compiler.command p.setup e.session.path = .ok typed ∧
      noteOn ("Compiling " ++ e.session.path ++ ": " ++ Text.quotedList typed) p.setup =
        (.ok (), t) := by
    refine Classical.byContradiction fun hnot => h (launched_of_unannounced hp hfound ?_)
    exact fun typed t htyped ht => hnot ⟨typed, t, htyped, ht⟩
  obtain ⟨typed, t, htyped, ht⟩ := hannounced
  obtain ⟨compiler, arguments, -, harguments, -⟩ := Compiler.command_eq_ok.1 htyped
  obtain ⟨typed', t', launched, hannounces⟩ :=
    exists_announces hp hfound (withDisk_of_noteOn ht).1 harguments
  exact ⟨typed', sends_of_announces hp hfound hannounces h⟩

/-- Typed words are read back as they were, so typed arguments are given to the compiler as they
are. A compilation that launches something has announced it in the log, and what is launched can be
read back from there, unless the configured compiler is the log file, which the announcement makes:
then the compiler that comes with the program is announced, and the log file is launched. -/
theorem announced_words (words : List Text.CodePoints) (s : Setup) (source : String) (e : Engine) :
    Shell.split (Shell.join words) = .ok words ∧
    (s.settings.value "compiler_args" = .text (Shell.join words) →
      Compiler.command s source = (Compiler.resolve s).map fun compiler =>
        CodePoints.ofString compiler.text :: CodePoints.ofString source :: words) ∧
    ((Engine.compile e).2.launched ≠ e.launched →
      ∃ typed l, Sends e typed l (Engine.compile e).2) :=
  ⟨Shell.split_join words, fun h => Compiler.command_of_joined h source, exists_sends⟩

/-- A compiler with an argument that holds a space and a quote. -/
def quotingEngine : Engine := engineWith (Shell.join ["-o", "it's a.exe"])

theorem announced_words_of_quotingEngine :
    Compiler.command quotingEngine.setup "/w/a.cple" =
      .ok ["/opt/cplebolt/bin/cple.out", "/w/a.cple", "-o", "it's a.exe"] ∧
    ∃ typed l, Sends quotingEngine typed l (Engine.compile quotingEngine).2 ∧
      Shell.split (Shell.join typed) = .ok l.command := by
  obtain ⟨-, hcommand, hsends⟩ :=
    announced_words ["-o", "it's a.exe"] quotingEngine.setup "/w/a.cple" quotingEngine
  have hlaunched : (Engine.compile quotingEngine).2.launched.length = 1 := by decide +kernel
  have hmore : (Engine.compile quotingEngine).2.launched ≠ quotingEngine.launched := by
    intro hsame
    rw [hsame] at hlaunched
    exact absurd hlaunched (by decide)
  obtain ⟨typed, l, hl⟩ := hsends hmore
  refine ⟨hcommand rfl, typed, l, hl, ?_⟩
  refine hl.same.2 ?_
  rintro ⟨p, hp⟩
  have hnone : Compiler.configured? (reload quotingEngine).2.setup.settings = .ok none :=
    Action.eq_ok_of_toOption (by decide +kernel)
  exact nomatch hnone.symm.trans hp.configured

/-- An engine whose configured compiler is its own log file, on a machine without that file. -/
def selfNamingEngine : Engine where
  setup :=
    { machine :=
        { disk := [(["tmp"], .directory), (["w"], .directory), (["w", "a.cple"], .file (.bytes [])),
            (["opt"], .directory), (["opt", "cplebolt"], .directory),
            (["opt", "cplebolt", "bin"], .directory),
            (["opt", "cplebolt", "bin", "cple.out"], .file (.bytes []))] }
      settings :=
        { directory := Path.ofText "/home/user"
          values := [("compiler_path", .text "/tmp/cplebolt_engine.log")] } }
  session := { path := "/w/a.cple" }

/-- The compiler that comes with the program is announced, and the log file is launched. -/
theorem launched_of_selfNamingEngine :
    ∃ e' l, Engine.compile selfNamingEngine = (.ok true, e') ∧ e'.launched = [l] ∧
      OutputLog.append []
        ("$ " ++ Shell.line ["/opt/cplebolt/bin/cple.out", "/w/a.cple"] ++ "\n") <+:
          e'.session.output ∧
      l.command = ["/tmp/cplebolt_engine.log", "/w/a.cple"] ∧
      Shell.split (Shell.join ["/opt/cplebolt/bin/cple.out", "/w/a.cple"]) ≠ .ok l.command := by
  have hcompile : Engine.compile selfNamingEngine = (.ok true, (Engine.compile selfNamingEngine).2) :=
    Action.eq_of_toOption (by decide +kernel)
  have hcommands : (Engine.compile selfNamingEngine).2.launched.map Launch.command =
      ([["/tmp/cplebolt_engine.log", "/w/a.cple"]] : List (List CodePoints)) := by decide +kernel
  obtain ⟨l, hl, hcommand⟩ := List.map_eq_singleton_iff.1 hcommands
  have hmore : (Engine.compile selfNamingEngine).2.launched ≠ selfNamingEngine.launched := by
    rw [hl]
    exact List.cons_ne_nil l []
  have hannounced : Compiler.command (reload selfNamingEngine).2.setup "/w/a.cple" =
      .ok ["/opt/cplebolt/bin/cple.out", "/w/a.cple"] := Action.eq_ok_of_toOption (by decide +kernel)
  obtain ⟨typed, l', hsends⟩ := exists_sends hmore
  obtain rfl := Except.ok.inj (hannounced.symm.trans hsends.command)
  refine ⟨_, l, hcompile, hl, hsends.output, hcommand, ?_⟩
  rw [Shell.split_join, hcommand]
  simp [CodePoints.ofString_inj]

end Engine

end Workbench
