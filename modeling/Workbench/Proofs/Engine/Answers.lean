import Workbench.Proofs.Action
import Workbench.Proofs.Compiler.Launch
import Workbench.Proofs.Engine.Diagnostics
import Workbench.Proofs.Engine.LooksFor

/-!
# When a compilation answers

* `Readable m source` : the text of a source can be had, or the system refuses to open it;
* `Answerable e` : what a compilation must find in the source, in the settings and in the launch of
  the compiler to answer;
* `Stuck e e'` : the diagnostics are dropped and the status is that of a compilation under way;
* `compile_answers` : a compilation answers if and only if it can. If it answers, it shows the
  session with the status of its end. If it fails, it shows nothing, and with the compiler there it
  is stuck.
-/

namespace Workbench.Engine

open Compiler (compilerLaunch Silent)

/-! ## Before the launch -/

/-- The text of a source can be had, or the system refuses to open it. -/
def Readable (m : Machine) (source : String) : Prop :=
  ∀ failure, m.readText source = .error failure → ∃ x, failure = .os x

theorem reread_of_readable {source : String} {s : Setup} (h : Readable s.machine source)
    (hlog : LogOpen s.machine) : ∃ code t, reread source s = (.ok code, t) ∧ LogOpen t.machine := by
  unfold reread
  cases hread : s.machine.readText source with
  | ok code => exact ⟨some code, s, rfl, hlog⟩
  | error failure =>
    obtain ⟨x, rfl⟩ := h failure hread
    obtain ⟨t, ht, hopen⟩ := noteOn_of_logOpen ("Could not read source: " ++ x.message) hlog
    exact ⟨none, t, Action.bind_eq_of_ok ht, hopen⟩

theorem reload_of_unreadable {e : Engine} (h : ¬ Readable e.setup.machine e.session.path) :
    ∃ failure, reload e = (.error failure, e) := by
  obtain ⟨failure, hfailure⟩ := Classical.not_forall.1 h
  obtain ⟨hread, hnot⟩ := Classical.not_imp.1 hfailure
  refine ⟨failure, ?_⟩
  unfold reload
  rw [Action.bind_eq_of_ok (Action.get_apply e), hread]
  cases failure with
  | os x => exact absurd ⟨x, rfl⟩ hnot
  | _ => rfl

theorem Noted.logOpen_afterNext {s t : Setup} (h : Noted s t) (hlater : LogOpen s.machine.afterNext) :
    LogOpen t.machine.afterNext := by
  obtain ⟨d, hd, rfl⟩ := h
  have hdisk : Machine.Disk.WithFile logPlace s.machine.disk (s.machine.withDisk d).disk := hd
  exact hlater.of_withFile (Machine.withFile_apply hdisk _) rfl

theorem exists_prepares_of_readable {s : Setup} {source : String} {compiler : Path} {found : Bool}
    (hsource : isSource source = true) (hreadable : Readable s.machine source)
    (hlog : LogOpen s.machine) (hlook : LooksFor s compiler found) :
    ∃ p, Prepares s source p ∧ LogOpen p.setup.machine := by
  obtain ⟨code, t, ht, hopen⟩ := reread_of_readable hreadable hlog
  obtain ⟨compiler', found', hlook', -⟩ := hlook.noted hlog (noted_of_reread ht)
  exact ⟨⟨code, t, compiler', found'⟩, ⟨hsource, ht, hlook'.resolved, hlook'.asked⟩, hopen⟩

/-! ## The launch -/

/-- A compilation that broke off: nothing is shown, and what is there is neither the state before it
nor that of its end. -/
structure Stuck (e e' : Engine) : Prop where
  updates : e'.updates = e.updates
  status : e'.session.status = "compiling"
  diagnostics : e'.session.diagnostics = []

/-- The engine from which a compiler that is there is launched. -/
def compiling (e : Engine) (p : Prepared) : Engine :=
  { e with
    setup := p.setup
    session := { (e.session.reread p.code).forget e.session.path with status := "compiling" } }

theorem stuck_compiling (e : Engine) (p : Prepared) : Stuck e (e.compiling p) where
  updates := rfl
  status := rfl
  diagnostics := by
    have hpath : (e.session.reread p.code).path = e.session.path := path_reread e.session p.code
    show Collection.of (Record.erase _ e.session.path) (e.session.reread p.code).path = []
    rw [hpath, Collection.of, Record.get?_erase, if_pos rfl]
    rfl

theorem stuck_of_arguments {e : Engine} {p : Prepared} {failure : Failure}
    (hp : Prepares e.setup e.session.path p) (hfound : p.found = true)
    (harguments : Compiler.arguments p.setup.settings = .error failure) :
    ∃ e', compile e = (.error failure, e') ∧ Stuck e e' := by
  have hwords : askSetup (fun s => Compiler.command s e.session.path) (e.compiling p) =
      (.error failure, e.compiling p) := by
    refine Prod.ext ?_ rfl
    show Compiler.command p.setup e.session.path = .error failure
    rw [command_of_resolve hp.compiler, harguments]
    rfl
  refine ⟨e.compiling p, ?_, stuck_compiling e p⟩
  rw [compile_of_prepares hp, hfound, if_pos rfl]
  unfold build
  rw [Action.bind_eq_of_ok (change_apply _ _)]
  exact Action.bind_eq_of_error hwords

/-- A compiler that is there, from the announcement of its launch on. It is launched with the words that
it has once there is a log file. -/
structure Announces (s : Setup) (source : String) (p : Prepared) (typed : List Text.CodePoints)
    (t : Setup) (launched : List Text.CodePoints) : Prop where
  command : Compiler.command p.setup source = .ok typed
  noted : noteOn ("Compiling " ++ source ++ ": " ++ Text.quotedList typed) p.setup = (.ok (), t)
  found : ∃ compiler, LooksFor t compiler true
  words : Compiler.command t source = .ok launched
  logged : Compiler.command s.withLog source = .ok launched

theorem exists_announces {s : Setup} {source : String} {p : Prepared} {words : List Text.CodePoints}
    (hp : Prepares s source p) (hfound : p.found = true) (hopen : LogOpen p.setup.machine)
    (harguments : Compiler.arguments p.setup.settings = .ok words) :
    ∃ typed t launched, Announces s source p typed t launched := by
  have htyped := command_of_resolve hp.compiler source
  rw [harguments] at htyped
  obtain ⟨t, ht, -⟩ := noteOn_of_logOpen ("Compiling " ++ source ++ ": " ++ Text.quotedList
    (Text.CodePoints.ofString p.compiler.text :: Text.CodePoints.ofString source :: words)) hopen
  have hnoted : Noted p.setup t := noted_of_noteOn ht
  have hprepared : Noted s p.setup := noted_of_reread hp.reread
  have hlook : LooksFor p.setup p.compiler true := ⟨hp.compiler, hfound ▸ hp.found⟩
  obtain ⟨compiler, found, hlook', hmore⟩ := hlook.noted hopen hnoted
  obtain rfl := hmore rfl
  have hlaunched := command_of_resolve hlook'.resolved source
  have hlogged := command_of_resolve (resolve_of_noteOn hprepared ht hlook'.resolved) source
  have hsettings : s.withLog.settings = p.setup.settings := hprepared.settings.symm
  rw [hnoted.settings, harguments] at hlaunched
  rw [hsettings, harguments] at hlogged
  exact ⟨_, t, _, htyped, ht, ⟨compiler, hlook'⟩, hlaunched, hlogged⟩

section Announces
variable {s t : Setup} {source : String} {p : Prepared} {typed launched : List Text.CodePoints}

/-- A launch that does not fail of itself is made, and its ending is all that matters. -/
theorem Announces.compile_of_lets (h : Announces s source p typed t launched)
    (hp : Prepares s source p)
    (hlets : ∀ failure, ¬ s.machine.Balks (compilerLaunch s.settings source launched) failure) :
    ∃ seconds, Compiler.compile source t =
      (Compiler.compilationOf s.settings launched s.machine.nextEnding seconds,
        t.afterLaunch (compilerLaunch s.settings source launched)) := by
  have hnoted : Noted s t := (noted_of_reread hp.reread).trans (noted_of_noteOn h.noted)
  obtain ⟨compiler, hlook⟩ := h.found
  have hcompile := Compiler.compile_of_found hlook.resolved hlook.asked h.words (by
    rw [hnoted.settings]
    exact fun failure hbalks => hlets failure (hnoted.balks_iff.1 hbalks))
  rw [hnoted.settings, hnoted.nextEnding] at hcompile
  exact ⟨_, hcompile⟩

/-- A launch that fails, or amounts to no result, is no compilation. -/
theorem Announces.compile_eq_error (h : Announces s source p typed t launched)
    (hp : Prepares s source p) {failure : Failure}
    (hfails : s.machine.Balks (compilerLaunch s.settings source launched) failure ∨
      (∀ failure, ¬ s.machine.Balks (compilerLaunch s.settings source launched) failure) ∧
        Silent s.settings s.machine.nextEnding failure) :
    (Compiler.compile source t).1 = .error failure := by
  rcases hfails with hbalks | ⟨hlets, hsilent⟩
  · have hnoted : Noted s t := (noted_of_reread hp.reread).trans (noted_of_noteOn h.noted)
    obtain ⟨compiler, hlook⟩ := h.found
    refine Compiler.compile_of_balks hlook.resolved hlook.asked h.words ?_
    rw [hnoted.settings]
    exact hnoted.balks_iff.2 hbalks
  · obtain ⟨seconds, hcompile⟩ := h.compile_of_lets hp hlets
    rw [hcompile]
    exact Compiler.compilationOf_eq_error_iff.2 hsilent

end Announces

theorem onSetup_of_eq {α : Type} {a : Action Setup α} {e : Engine} {r : Except Failure α} {s : Setup}
    (h : a e.setup = (r, s)) : onSetup a e = (r, { e with setup := s }) := by
  show ((a e.setup).1, ({ e with setup := (a e.setup).2 } : Engine)) = _
  rw [h]

/-- The engine after the launch was announced in the log and in the log file. -/
def announced (e : Engine) (p : Prepared) (typed : List Text.CodePoints) (t : Setup) : Engine :=
  { e.compiling p with
    setup := t
    session := (e.compiling p).session.say ("$ " ++ Shell.line typed ++ "\n") }

theorem compile_of_announced {e : Engine} {p : Prepared} {typed : List Text.CodePoints} {t : Setup}
    (hp : Prepares e.setup e.session.path p) (hfound : p.found = true)
    (htyped : Compiler.command p.setup e.session.path = .ok typed)
    (ht : noteOn ("Compiling " ++ e.session.path ++ ": " ++ Text.quotedList typed) p.setup =
      (.ok (), t)) :
    compile e = (do
      let c ← onSetup (Compiler.compile e.session.path)
      change fun s => { s with lastCompilation := some c }
      if c.succeeded then reportSuccess c else reportFailure e.session.path c
      return c.succeeded : Action Engine Bool) (e.announced p typed t) := by
  have hwords : askSetup (fun s => Compiler.command s e.session.path) (e.compiling p) =
      (.ok typed, e.compiling p) := Prod.ext htyped rfl
  have hnote : note ("Compiling " ++ e.session.path ++ ": " ++ Text.quotedList typed)
      { e.compiling p with
        session := (e.compiling p).session.say ("$ " ++ Shell.line typed ++ "\n") } =
      (.ok (), e.announced p typed t) := note_eq_ok.2 ⟨t, ht, rfl⟩
  rw [compile_of_prepares hp, hfound, if_pos rfl]
  unfold build
  rw [Action.bind_eq_of_ok (change_apply _ _)]
  refine (Action.bind_eq_of_ok hwords).trans ?_
  rw [Action.bind_eq_of_ok (say_apply _ _)]
  exact Action.bind_eq_of_ok hnote

theorem stuck_of_launch {e : Engine} {p : Prepared} {typed launched : List Text.CodePoints}
    {t : Setup} (hp : Prepares e.setup e.session.path p) (hfound : p.found = true)
    (h : Announces e.setup e.session.path p typed t launched) {failure : Failure}
    (hfails : (Compiler.compile e.session.path t).1 = .error failure) :
    ∃ e', compile e = (.error failure, e') ∧ Stuck e e' := by
  have hlaunch := onSetup_of_eq (e := e.announced p typed t)
    (s := (Compiler.compile e.session.path t).2) (Prod.ext hfails rfl)
  have hcompiled := (compile_of_announced hp hfound h.command h.noted).trans
    (Action.bind_eq_of_error hlaunch)
  have hstuck := stuck_compiling e p
  exact ⟨_, hcompiled, hstuck.updates, hstuck.status, hstuck.diagnostics⟩

theorem exists_builds {s : Setup} {source : String} {p : Prepared} {typed launched : List Text.CodePoints}
    {t : Setup} (hp : Prepares s source p) (h : Announces s source p typed t launched)
    (hlater : LogOpen s.machine.afterNext)
    (hlets : ∀ failure, ¬ s.machine.Balks (compilerLaunch s.settings source launched) failure)
    (hending : ∀ failure, ¬ Silent s.settings s.machine.nextEnding failure) :
    ∃ b, Builds p.setup source b := by
  obtain ⟨seconds, hcompile⟩ := h.compile_of_lets hp hlets
  have hlaunched : ∃ c, Compiler.compilationOf s.settings launched s.machine.nextEnding seconds =
      .ok c := Compiler.exists_compilationOf.2 hending
  obtain ⟨c, hc⟩ := hlaunched
  rw [hc] at hcompile
  have hnoted : Noted s t := (noted_of_reread hp.reread).trans (noted_of_noteOn h.noted)
  let after := t.afterLaunch (compilerLaunch s.settings source launched)
  have hafter : LogOpen after.machine :=
    (hnoted.logOpen_afterNext hlater).of_withFile (.refl logPlace _) rfl
  obtain ⟨u, hu, -⟩ := noteOn_of_logOpen (reportText c) hafter
  exact ⟨⟨typed, t, c, _, u⟩, h.command, h.noted, hcompile, hu⟩

/-! ## Answers -/

/-- What a compilation must find to answer: a source that can be read, settings that name a compiler
and words to launch it with, and then a launch that does not fail of itself and ends with text, within a
time that can be written if that is over. -/
structure Answerable (e : Engine) : Prop where
  readable : Readable e.setup.machine e.session.path
  configured : ∃ c, Compiler.configured? e.setup.settings = .ok c
  arguments : Invokes e.setup e.session.path →
    ∃ words, Compiler.arguments e.setup.settings = .ok words
  launch : Invokes e.setup e.session.path →
    ∀ words, Compiler.command e.setup.withLog e.session.path = .ok words →
      ∀ failure, ¬ e.setup.machine.Balks
        (compilerLaunch e.setup.settings e.session.path words) failure
  ending : Invokes e.setup e.session.path →
    ∀ failure, ¬ Silent e.setup.settings e.setup.machine.nextEnding failure

/-- The log file can be written to, also after the compiler did its work, and the system says
whether the compiler is there. -/
structure Serves (e : Engine) : Prop where
  log : LogOpen e.setup.machine
  later : Invokes e.setup e.session.path → LogOpen e.setup.machine.afterNext
  compiler : ∀ p, Compiler.configured? e.setup.settings = .ok p →
    ∃ compiler found, LooksFor e.setup compiler found

theorem Prepares.noted {s : Setup} {source : String} {p : Prepared} (h : Prepares s source p) :
    Noted s p.setup := noted_of_reread h.reread

theorem exists_answer {e : Engine} (hserves : Serves e)
    (h : isSource e.session.path = true → Answerable e) : ∃ r e', compile e = (.ok r, e') := by
  by_cases hsource : isSource e.session.path = true
  · obtain ⟨hreadable, ⟨configured, hconfigured⟩, harguments, hlaunch, hending⟩ := h hsource
    obtain ⟨compiler, found, hlook⟩ := hserves.compiler configured hconfigured
    obtain ⟨p, hp, hopen⟩ := exists_prepares_of_readable hsource hreadable hserves.log hlook
    cases hfound : p.found with
    | false =>
      obtain ⟨s, hs, -⟩ := noteOn_of_logOpen (Compiler.missingText p.compiler) hopen
      exact ⟨false, _, compile_eq_ok.2 (.missing hp hfound hs)⟩
    | true =>
      have hinvokes : Invokes e.setup e.session.path := ⟨p, hp, hfound⟩
      obtain ⟨words, hwords⟩ := harguments hinvokes
      obtain ⟨typed, t, launched, hannounces⟩ :=
        exists_announces hp hfound hopen (hp.noted.settings ▸ hwords)
      obtain ⟨b, hb⟩ := exists_builds hp hannounces (hserves.later hinvokes)
        (hlaunch hinvokes launched hannounces.logged) (hending hinvokes)
      exact ⟨_, _, compile_eq_ok.2 (.built hp hfound hb)⟩
  · exact ⟨false, e.refused, compile_eq_ok.2 (.refused (by simpa using hsource))⟩

theorem compile_of_unreadable {e : Engine} (hsource : isSource e.session.path = true)
    (h : ¬ Readable e.setup.machine e.session.path) :
    ∃ failure, compile e = (.error failure, e) := by
  obtain ⟨failure, hreload⟩ := reload_of_unreadable h
  refine ⟨failure, ?_⟩
  unfold compile
  rw [Action.bind_eq_of_ok (Action.get_apply e), if_pos hsource]
  exact Action.bind_eq_of_error hreload

theorem compile_of_configured {e : Engine} {failure : Failure}
    (hsource : isSource e.session.path = true) (hreadable : Readable e.setup.machine e.session.path)
    (hlog : LogOpen e.setup.machine) (h : Compiler.configured? e.setup.settings = .error failure) :
    ∃ e', compile e = (.error failure, e') ∧ e'.updates = e.updates := by
  obtain ⟨code, s, hs, -⟩ := reread_of_readable hreadable hlog
  have hreload : reload e = (.ok (), { e with setup := s, session := e.session.reread code }) :=
    reload_eq_ok.2 ⟨code, s, hs, rfl⟩
  have hresolve : Compiler.resolve s = .error failure := by
    refine resolve_of_failure ?_
    rw [(noted_of_reread hs).settings]
    exact h
  refine ⟨{ e with setup := s, session := e.session.reread code }, ?_, rfl⟩
  unfold compile
  rw [Action.bind_eq_of_ok (Action.get_apply e), if_pos hsource, Action.bind_eq_of_ok hreload]
  exact Action.bind_eq_of_error (Prod.ext hresolve rfl)

theorem Invokes.readable {s : Setup} {source : String} (h : Invokes s source) :
    Readable s.machine source := by
  obtain ⟨p, hp, -⟩ := h
  intro failure hread
  have hreread := hp.reread
  unfold reread at hreread
  rw [hread] at hreread
  cases failure with
  | os x => exact ⟨x, rfl⟩
  | _ => exact absurd (congrArg Prod.fst hreread) (by simp)

theorem Invokes.configured {s : Setup} {source : String} (h : Invokes s source) :
    ∃ p, Compiler.configured? s.settings = .ok p := by
  obtain ⟨p, hp, -⟩ := h
  cases hconfigured : Compiler.configured? s.settings with
  | ok configured => exact ⟨configured, rfl⟩
  | error failure =>
    have hresolve := hp.compiler
    rw [resolve_of_failure (hp.noted.settings ▸ hconfigured)] at hresolve
    exact nomatch hresolve

/-- A launch that is announced fails of itself or amounts to no result, or all is well with it. -/
theorem Announces.fails_or_lets {s t : Setup} {source : String} {p : Prepared}
    {typed launched : List Text.CodePoints} (h : Announces s source p typed t launched)
    (hp : Prepares s source p) :
    (∃ failure, (Compiler.compile source t).1 = .error failure) ∨
      (∀ failure, ¬ s.machine.Balks (compilerLaunch s.settings source launched) failure) ∧
        ∀ failure, ¬ Silent s.settings s.machine.nextEnding failure := by
  by_cases hlets : ∀ failure,
      ¬ s.machine.Balks (compilerLaunch s.settings source launched) failure
  · by_cases hending : ∀ failure, ¬ Silent s.settings s.machine.nextEnding failure
    · exact .inr ⟨hlets, hending⟩
    · obtain ⟨failure, hsilent⟩ := Classical.not_forall_not.1 hending
      exact .inl ⟨failure, h.compile_eq_error hp (.inr ⟨hlets, hsilent⟩)⟩
  · obtain ⟨failure, hbalks⟩ := Classical.not_forall_not.1 hlets
    exact .inl ⟨failure, h.compile_eq_error hp (.inl hbalks)⟩

/-- With the compiler there, the words to launch it with are lacking, or its launch comes to
nothing. -/
theorem exists_stuck {e : Engine} (hserves : Serves e) (hinvokes : Invokes e.setup e.session.path)
    (h : ¬ Answerable e) : ∃ failure e', compile e = (.error failure, e') ∧ Stuck e e' := by
  obtain ⟨p, hp, hfound⟩ := hinvokes
  have hopen : LogOpen p.setup.machine := hp.noted.logOpen hserves.log
  cases harguments : Compiler.arguments p.setup.settings with
  | error failure => exact ⟨failure, stuck_of_arguments hp hfound harguments⟩
  | ok words =>
    obtain ⟨typed, t, launched, hannounces⟩ := exists_announces hp hfound hopen harguments
    rcases hannounces.fails_or_lets hp with ⟨failure, hfails⟩ | ⟨hlets, hending⟩
    · exact ⟨failure, stuck_of_launch hp hfound hannounces hfails⟩
    · -- The source was read and the compiler was found, so nothing is left to be lacking.
      refine absurd ⟨Invokes.readable ⟨p, hp, hfound⟩, Invokes.configured ⟨p, hp, hfound⟩,
        fun _ => ⟨words, hp.noted.settings ▸ harguments⟩, fun _ words' hwords' => ?_,
        fun _ => hending⟩ h
      obtain rfl := Except.ok.inj (hannounces.logged.symm.trans hwords')
      exact hlets

/-- What a compilation lacks makes it fail, and with the compiler there it is stuck. -/
theorem exists_failure {e : Engine} (hserves : Serves e) (hsource : isSource e.session.path = true)
    (h : ¬ Answerable e) : ∃ failure e', compile e = (.error failure, e') ∧
      e'.updates = e.updates ∧ (Invokes e.setup e.session.path → Stuck e e') := by
  by_cases hinvokes : Invokes e.setup e.session.path
  · obtain ⟨failure, e', he', hstuck⟩ := exists_stuck hserves hinvokes h
    exact ⟨failure, e', he', hstuck.updates, fun _ => hstuck⟩
  · by_cases hreadable : Readable e.setup.machine e.session.path
    · cases hconfigured : Compiler.configured? e.setup.settings with
      | error failure =>
        obtain ⟨e', he', hupdates⟩ := compile_of_configured hsource hreadable hserves.log hconfigured
        exact ⟨failure, e', he', hupdates, fun h => absurd h hinvokes⟩
      | ok configured =>
        exact absurd ⟨hreadable, ⟨configured, hconfigured⟩, fun h => absurd h hinvokes,
          fun h => absurd h hinvokes, fun h => absurd h hinvokes⟩ h
    · obtain ⟨failure, hfailure⟩ := compile_of_unreadable hsource hreadable
      exact ⟨failure, e, hfailure, rfl, fun h => absurd h hinvokes⟩

theorem statusText_ne (c : Compilation) : statusText c ≠ "compiling" := by
  intro h
  have hletters := congrArg (fun s : String => s.toList.take 7) h
  unfold statusText at hletters
  cases hc : c.succeeded <;> simp [hc] at hletters

/-- A compilation that answers has come to its end and was shown. -/
theorem Compiles.shown {e e' : Engine} {r : Bool} (h : Compiles e r e') :
    e'.session.status ≠ "compiling" ∧ e'.updates = e.updates ++ [e'.session] := by
  cases h with
  | refused hsource =>
    have hne : "not a CPLE file" ≠ "compiling" := by decide
    exact ⟨hne, rfl⟩
  | missing hp hfound hnote =>
    have hne : "compiler missing" ≠ "compiling" := by decide
    exact ⟨hne, rfl⟩
  | @built p b hp hfound hb => exact ⟨statusText_ne b.compilation, rfl⟩

/-- While the log file can be written to and the system says whether the compiler is there, a
compilation answers if and only if the source is text or cannot be opened, the settings name a
compiler and words to launch it with, and the launch neither fails of itself nor ends without a
result. If it answers, it shows the session with the status of its end. If it fails, it shows nothing,
and with the compiler there the diagnostics are gone and the status is still that of a compilation
under way. -/
theorem compile_answers (e : Engine) :
    (Serves e →
      ((∃ r e', compile e = (.ok r, e')) ↔ (isSource e.session.path = true → Answerable e))) ∧
    (∀ (e' : Engine) (r : Bool), compile e = (.ok r, e') →
      e'.session.status ≠ "compiling" ∧ e'.updates = e.updates ++ [e'.session]) ∧
    (∀ (e' : Engine) (failure : Failure), Serves e → compile e = (.error failure, e') →
      e'.updates = e.updates ∧ (Invokes e.setup e.session.path → Stuck e e')) := by
  refine ⟨fun hserves => ⟨?_, exists_answer hserves⟩,
    fun e' r h => (compile_eq_ok.1 h).shown, fun e' failure hserves h => ?_⟩
  · rintro ⟨r, e', h⟩ hsource
    refine Classical.byContradiction fun hnot => ?_
    obtain ⟨failure, e'', hfailure, -⟩ := exists_failure hserves hsource hnot
    exact absurd (congrArg Prod.fst (h.symm.trans hfailure)) (by simp)
  · have hnot : ¬ (isSource e.session.path = true → Answerable e) := by
      intro hanswerable
      obtain ⟨r, e'', hr⟩ := exists_answer hserves hanswerable
      exact absurd (congrArg Prod.fst (h.symm.trans hr)) (by simp)
    obtain ⟨hsource, hnot⟩ := Classical.not_imp.1 hnot
    obtain ⟨failure', e'', h', hupdates, hstuck⟩ := exists_failure hserves hsource hnot
    obtain ⟨-, rfl⟩ := Prod.mk.inj (h.symm.trans h')
    exact ⟨hupdates, hstuck⟩

/-- A machine with the compiler that comes with the program. -/
def equippedMachine : Machine where
  disk := [(["tmp"], .directory), (["opt"], .directory), (["opt", "cplebolt"], .directory),
    (["opt", "cplebolt", "bin"], .directory),
    (["opt", "cplebolt", "bin", "cple.out"], .file (.bytes []))]

/-- An engine for a source with a diagnostic, with this text for the arguments of the compiler. -/
def engineWith (arguments : Text.CodePoints) : Engine where
  setup :=
    { machine := equippedMachine
      settings :=
        { directory := Path.ofText "/home/user", values := [("compiler_args", .text arguments)] } }
  session :=
    { path := "/w/a.cple"
      collection :=
        [("/w/a.cple", [{ line := 7, column := 0, severity := .error, message := "old" }])] }

theorem logOpen_equippedMachine : LogOpen equippedMachine := ⟨by decide, by decide, by decide⟩

theorem pathExists_equippedMachine :
    equippedMachine.pathExists Compiler.bundled.text = .ok true :=
  Action.eq_ok_of_toOption (by decide +kernel)

theorem serves_engineWith (arguments : Text.CodePoints) : Serves (engineWith arguments) where
  log := logOpen_equippedMachine
  later := fun _ => logOpen_equippedMachine.of_withFile (.refl logPlace _) rfl
  compiler := fun _ _ => ⟨Compiler.bundled, true, rfl, pathExists_equippedMachine⟩

theorem compile_open_quote :
    compile (engineWith "\"") =
      (.error (.badArguments .openQuote), (compile (engineWith "\"")).2) :=
  Prod.ext (Action.eq_error_of_failure? (by decide +kernel)) rfl

/-- With an option for the compiler, a compilation answers. With an open quote, it does not. -/
theorem answers_of_engineWith :
    (∃ e', compile (engineWith "-v") = (.ok true, e') ∧ e'.session.status ≠ "compiling" ∧
      Answerable (engineWith "-v")) ∧
    ∃ e', compile (engineWith "\"") = (.error (.badArguments .openQuote), e') ∧
      e'.updates = (engineWith "\"").updates ∧ ¬ Answerable (engineWith "\"") := by
  have hsource : ∀ arguments, isSource (engineWith arguments).session.path = true := by
    intro arguments
    show isSource "/w/a.cple" = true
    decide +kernel
  have hv : compile (engineWith "-v") = (.ok true, (compile (engineWith "-v")).2) :=
    Action.eq_of_toOption (by decide +kernel)
  obtain ⟨hanswers, hshown, -⟩ := compile_answers (engineWith "-v")
  obtain ⟨hquoted, -, hfails⟩ := compile_answers (engineWith "\"")
  refine ⟨⟨_, hv, (hshown _ _ hv).1, ?_⟩, _, compile_open_quote,
    (hfails _ _ (serves_engineWith "\"") compile_open_quote).1, ?_⟩
  · exact (hanswers (serves_engineWith "-v")).1 ⟨true, _, hv⟩ (hsource "-v")
  · intro hanswerable
    obtain ⟨r, e', h⟩ := (hquoted (serves_engineWith "\"")).2 fun _ => hanswerable
    exact absurd (congrArg Prod.fst (compile_open_quote.symm.trans h)) (by simp)

/-- With an open quote in the arguments, nothing is shown, the diagnostic of the source is gone and
the status stays that of a compilation under way. -/
theorem stuck_of_open_quote :
    Serves (engineWith "\"") ∧ (engineWith "\"").session.diagnostics.length = 1 ∧
      ∃ e', compile (engineWith "\"") = (.error (.badArguments .openQuote), e') ∧
        e'.session.status = "compiling" ∧ e'.session.diagnostics = [] ∧ e'.updates = [] := by
  have hupdates : (compile (engineWith "\"")).2.updates.length = 0 := by decide +kernel
  exact ⟨serves_engineWith "\"", by decide +kernel, (compile (engineWith "\"")).2,
    compile_open_quote, by decide +kernel, by decide +kernel, List.length_eq_zero_iff.1 hupdates⟩

end Workbench.Engine
