import Workbench.Proofs.Engine.Keeping
import Workbench.Proofs.Screen.Events
import Workbench.Proofs.Settings.Texts
import Workbench.Proofs.Shell.Blanks

/-!
# What becomes of arguments that are entered

A text that is entered goes without the blanks around it through a message into the settings and their
file, and is split into words for each launch of the compiler.

* `keeps_act` : an event that delivers no arguments keeps the settings;
* `Reached directory path s` : the screens that events lead to from an opened source;
* `RunsWith path words t u` : until other arguments are delivered, the compiler gets these words;
* `command_of_entered` : it gets the words of the text that was entered, also from an engine that loads
  the settings again, exactly if the blanks around the text do not matter.
-/

namespace Workbench

open Settings.Store (Entered Visible)
open Text (CodePoints trimmed)

namespace Screen

variable {τ : Type}

/-! ## Events that deliver no arguments -/

/-- The engine keeps its settings and its source, and launches nothing but the compiler with the
arguments of the settings, and programs. -/
def Keeps (s t : Screen τ) : Prop := s.engine.Retains t.engine

theorem Keeps.trans {s t u : Screen τ} (h : Keeps s t) (h' : Keeps t u) : Keeps s u :=
  Engine.Retains.trans h h'

theorem Keeps.of_eq {s t : Screen τ} (h : t.engine = s.engine) : Keeps s t := by
  rw [Keeps, h]
  exact .refl s.engine

theorem keeps_modify {f : Screen τ → Screen τ} (h : ∀ s, (f s).engine = s.engine) :
    Action.Ensures Keeps (modify f : Action (Screen τ) PUnit) := fun s => .of_eq (h s)

theorem keeps_onEngine {α : Type} {a : Action Engine α} (h : ∀ path, Engine.Loyal path a) :
    Action.Ensures Keeps (onEngine a : Action (Screen τ) α) :=
  fun s => h s.engine.session.path s.engine rfl

variable [Rich τ]

theorem keeps_updateBar (u : StatusBar.Update) :
    Action.Ensures Keeps (updateBar u : Action (Screen τ) Unit) :=
  fun s => .of_eq (sameEngine_updateBar u s)

theorem keeps_announce : Action.Ensures Keeps (announce : Action (Screen τ) Unit) :=
  fun s => .of_eq (sameEngine_announce s)

theorem keeps_work {α : Type} {a : Action Engine α} (h : ∀ path, Engine.Loyal path a) :
    Action.Ensures Keeps (work a : Action (Screen τ) Unit) :=
  Action.Ensures.bind Keeps.trans keeps_announce fun _ =>
    Action.Ensures.bind Keeps.trans (keeps_onEngine h) fun _ _ => .of_eq rfl

theorem keeps_refresh (session : Session) :
    Action.Ensures Keeps (refresh session : Action (Screen τ) Unit) := by
  refine Action.Ensures.bind Keeps.trans (keeps_modify fun _ => rfl) fun _ => ?_
  refine Action.Ensures.bind Keeps.trans (fun _ => .of_eq rfl) fun _ => ?_
  exact Action.Ensures.bind Keeps.trans (keeps_modify fun _ => rfl) fun _ => keeps_updateBar _

/-- One case for each command. -/
theorem keeps_perform (c : Command) :
    Action.Ensures Keeps (perform c : Action (Screen τ) Unit) := by
  cases c with
  | start =>
    refine Action.Ensures.bind Keeps.trans (fun _ => .of_eq rfl) fun s => ?_
    exact Action.Ensures.bind Keeps.trans (keeps_updateBar _) fun _ =>
      keeps_onEngine fun _ => Engine.loyal_start
  | stop =>
    refine keeps_onEngine fun path => Engine.Loyal.bind ?_ fun _ => Engine.loyal_close
    exact Engine.loyal_stop
  | compile => exact keeps_work fun _ => Engine.loyal_compile
  | run => exact keeps_work fun _ => Engine.loyal_run
  | check => exact keeps_work fun _ => Engine.loyal_check
  | probe =>
    exact Action.Ensures.bind Keeps.trans (keeps_modify fun _ => rfl) fun _ =>
      keeps_work fun _ => Engine.loyal_probe
  | toggleOutput | editArguments | leaveArguments | enterArguments =>
    exact keeps_modify fun _ => rfl
  | receive event => exact keeps_onEngine fun _ => Engine.loyal_receive event

namespace Event

/-- The work of the engine by itself, if it is an event of that, changes neither the settings nor the
source. -/
def IsOwn (e : Event) : Prop := ∀ a, e = .background a → ∀ path, Engine.Loyal path a

/-- The event delivers no arguments. -/
def IsLater (e : Event) : Prop := e.IsOwn ∧ ∀ text, e ≠ .delivery (.argumentsEntered text)

end Event

theorem keeps_act {e : Event} (h : e.IsLater) :
    Action.Ensures Keeps (e.act : Action (Screen τ) Unit) := by
  cases e with
  | command c => exact keeps_perform c
  | beginning => exact keeps_announce
  | collection => exact keeps_modify fun _ => rfl
  | background a => exact keeps_onEngine (h.1 a rfl)
  | delivery m =>
    cases m with
    | updated =>
      intro s
      rw [Event.act, handle_updated]
      exact keeps_refresh s.engine.session s
    | argumentsEntered text => exact absurd rfl (h.2 text)

theorem keeps_run {events : List Event} (h : ∀ e ∈ events, e.IsLater) :
    Action.Ensures Keeps (Event.run events : Action (Screen τ) Unit) := by
  induction events with
  | nil => exact fun _ => .of_eq rfl
  | cons e events ih =>
    obtain ⟨he, hevents⟩ := List.forall_mem_cons.1 h
    rw [Event.run_cons]
    exact Action.Ensures.bind Keeps.trans (keeps_act he) fun _ => ih hevents

/-! ## Arguments that are delivered -/

/-- Arguments that are taken are put into the settings, whether they can be written and shown or
not. -/
theorem engine_takeArguments (text : String) (s : Screen τ) :
    (takeArguments text s).2.engine = { s.engine with
      setup := (Setup.set "compiler_args" (.text text) s.engine.setup).2 } := by
  unfold takeArguments
  rw [Action.bind_apply, onEngine_onSetup]
  cases (Setup.set "compiler_args" (.text text) s.engine.setup).1 with
  | ok => exact sameEngine_updateBar _ _
  | error failure => rfl

/-! ## Screens that are reached -/

/-- The screens that events lead to, from that of a source with the settings of a directory. These
may have been loaded on any machine, and between any two events the machine may change as it will. -/
inductive Reached (directory : Path) (path : String) : Screen τ → Prop
  | make {m m' machine : Machine} {settings : Settings.Store} {made : Screen τ} {t : Setup}
      (hload : Settings.Store.load directory m = (.ok settings, m'))
      (hmake : make path { machine, settings } = (.ok made, t)) : Reached directory path made
  | act {s t : Screen τ} {e : Event} (h : Reached directory path s) (he : e.IsOwn)
      (hact : e.act s = (.ok (), t)) : Reached directory path t
  | elsewhere {s : Screen τ} (machine : Machine) (h : Reached directory path s) :
      Reached directory path
        { s with engine := { s.engine with setup := { s.engine.setup with machine } } }

/-- What holds of a screen between two events. -/
structure Settled (directory : Path) (path : String) (s : Screen τ) : Prop where
  settings : Entered directory s.engine.setup.settings
  path_eq : s.engine.session.path = path

theorem settings_greet (s : Setup) : (Compiler.greet s).2.settings = s.settings := by
  unfold Compiler.greet
  rw [Action.bind_eq_of_ok (Action.get_apply s)]
  cases Compiler.configured? s.settings with
  | error failure => rfl
  | ok configured =>
    cases Compiler.present? s with
    | error failure => cases configured <;> rfl
    | ok there => cases configured <;> cases there <;> rfl

theorem Settled.act {directory : Path} {path : String} {s : Screen τ}
    (h : Settled directory path s) {e : Event} (he : e.IsOwn) :
    Settled directory path (e.act s).2 := by
  by_cases hentered : ∃ text, e = .delivery (.argumentsEntered text)
  · obtain ⟨text, rfl⟩ := hentered
    have hengine := engine_takeArguments text s
    constructor
    · show Entered directory (takeArguments text s).2.engine.setup.settings
      rw [hengine]
      exact h.settings.enter text
    · show (takeArguments text s).2.engine.session.path = path
      rw [hengine]
      exact h.path_eq
  · have hkept := keeps_act ⟨he, fun text htext => hentered ⟨text, htext⟩⟩ s
    exact ⟨hkept.settings ▸ h.settings, hkept.path.trans h.path_eq⟩

theorem Reached.settled {directory : Path} {path : String} {s : Screen τ}
    (h : Reached directory path s) : Settled directory path s := by
  induction h with
  | make hload hmake =>
    obtain ⟨-, -, hpath, hsetup⟩ := of_make hmake
    refine ⟨?_, hpath⟩
    rw [hsetup, settings_greet]
    exact .load hload
  | act h he hact ih =>
    have hsettled := ih.act he
    rwa [hact] at hsettled
  | elsewhere machine h ih => exact ⟨ih.settings, ih.path_eq⟩

/-! ## Until other arguments are delivered -/

/-- From one screen to another one the compiler got these words, and it gets them next. -/
structure RunsWith (path : String) (words : List CodePoints) (t u : Screen τ) : Prop where
  passes : Compiler.PassesOn u.engine.setup path words
  compiles : (announce u).1 = .ok () →
    (perform .compile u).2.engine = (Engine.compile u.engine).2
  launches : ∃ new, u.engine.launched = t.engine.launched ++ new ∧
    ∀ l ∈ new, (∃ program : Path, l.command = [CodePoints.ofString program.text]) ∨
      ∃ compiler : Path,
        l.command = CodePoints.ofString compiler.text :: CodePoints.ofString path :: words

theorem runsWith_of_keeps {path : String} {words : List CodePoints} {t u : Screen τ}
    (hpath : t.engine.session.path = path)
    (hwords : Compiler.arguments t.engine.setup.settings = .ok words) (h : Keeps t u) :
    RunsWith path words t u := by
  refine ⟨?_, fun hannounced => engine_work hannounced Engine.compile, ?_⟩
  · refine Compiler.passesOn_of_arguments ?_ path
    rw [h.settings, hwords]
  · obtain ⟨new, hnew, hlaunches⟩ := h.launches
    refine ⟨new, hnew, fun l hl => (hlaunches l hl).imp_right ?_⟩
    rintro ⟨compiler, words', hwords', hcommand⟩
    obtain rfl := Except.ok.inj (hwords'.symm.trans hwords)
    exact ⟨compiler, hpath ▸ hcommand⟩

/-! ## The next commands -/

/-- The words of a text that was entered are the arguments, exactly if it is untouched. -/
theorem arguments_of_entered {store : Settings.Store} {v : String} {words : List CodePoints}
    (hv : Shell.split (CodePoints.ofString v) = .ok words)
    (hget : store.get? "compiler_args" = some (.text (trimmed v))) :
    Compiler.arguments store = .ok words ↔ Shell.Untouched v := by
  have hvalue : store.value "compiler_args" = .text (trimmed v) := by
    rw [Settings.Store.value, hget, Option.getD_some]
  rw [Compiler.arguments_eq_ok_of_text hvalue, Shell.split_trimmed_iff hv]

/-- A text is entered that can be split. It is delivered without the blanks around it to a screen with
settings that can be written, which fails only where the bar cannot be shown with it. If the blanks do
not matter, then until other arguments are delivered, whatever else happens, each launch of the
compiler has the compiler, the source and the words of the text as its command. Where the file of the
settings can be seen it can be loaded again, with the texts among the settings as they are, and each
launch by a new engine with these settings has the same command. If the blanks matter, none of these
launches has it. -/
theorem command_of_entered (τ : Type) [Rich τ] {directory : Path} {path v : String}
    {words : List CodePoints} {s : Screen τ} {t' : Setup} (hs : Reached directory path s)
    (hv : Shell.split (CodePoints.ofString v) = .ok words)
    (hwrite : Setup.set "compiler_args" (.text (trimmed v)) s.engine.setup = (.ok (), t')) :
    let message := Message.argumentsEntered (trimmed v)
    (∀ u : Screen τ, perform (.enterArguments v) u =
        (.ok (), { u with pending := u.pending ++ [message], argumentsShown := false })) ∧
      (handle message s).2.engine.setup = t' ∧
      ((handle message s).1 = .ok () ↔
        (s.bar.update { arguments := .text (trimmed v) }).IsShown τ) ∧
      (∀ t events u, handle message s = (.ok (), t) → (∀ e ∈ events, Event.IsLater e) →
        Event.run events t = (.ok (), u) →
          (Shell.Untouched v → RunsWith path words t u) ∧
          (¬ Shell.Untouched v → Compiler.Withholds u.engine.setup path words)) ∧
      (Visible t'.machine directory → ∃ reloaded,
        Settings.Store.load directory t'.machine = (.ok reloaded, t'.machine) ∧
        (∀ name text, t'.settings.get? name = some (.text text) →
          reloaded.get? name = some (.text text)) ∧
        ∀ machine e u, Engine.make path { machine, settings := reloaded } = (.ok e, u) →
          (Shell.Untouched v → Compiler.PassesOn e.setup path words) ∧
          (¬ Shell.Untouched v → Compiler.Withholds e.setup path words)) := by
  intro message
  obtain ⟨hsettings, hpath⟩ := hs.settled
  have hengine := engine_takeArguments (trimmed v) s
  rw [hwrite] at hengine
  have hput : t'.settings = s.engine.setup.settings.put "compiler_args" (.text (trimmed v)) := by
    rw [← Settings.Store.settings_set, hwrite]
  have hget : t'.settings.get? "compiler_args" = some (.text (trimmed v)) := by
    rw [hput, Settings.Store.get?_put_self]
  refine ⟨fun u => rfl, congrArg Engine.setup hengine,
    takeArguments_isOk_iff (congrArg Prod.fst hwrite), fun t events u ht hevents hu => ?_,
    fun hvisible => ?_⟩
  · -- the settings in memory have the text, and keep it
    have hafter : t.engine = { s.engine with setup := t' } := by
      rw [← hengine]
      exact (congrArg (fun p => p.2.engine) ht).symm
    have hkept := keeps_run hevents t
    rw [hu] at hkept
    have hwords := arguments_of_entered hv hget
    have hsetup : t.engine.setup.settings = t'.settings := by rw [hafter]
    rw [← hsetup] at hwords
    refine ⟨fun huntouched => ?_, fun htouched => ?_⟩
    · refine runsWith_of_keeps ?_ (hwords.2 huntouched) hkept
      rw [hafter, ← hpath]
    · refine Compiler.withholds_of_arguments ?_ path
      rw [hkept.settings]
      exact mt hwords.1 htouched
  · -- the file has the text, and what is loaded from it
    have hentered : Entered directory t'.settings := hput ▸ hsettings.enter (trimmed v)
    obtain ⟨reloaded, hload, htexts⟩ :=
      Settings.Store.exists_load_of_save hentered (hput ▸ Settings.Store.save_of_set hwrite) hvisible
    have hwords := arguments_of_entered hv (htexts _ _ hget)
    refine ⟨reloaded, hload, htexts, fun machine e u he => ?_⟩
    have hsame : e.setup.settings = reloaded := by rw [Engine.setup_of_make he, settings_greet]
    rw [← hsame] at hwords
    exact ⟨fun huntouched => Compiler.passesOn_of_arguments (hwords.2 huntouched) path,
      fun htouched => Compiler.withholds_of_arguments (mt hwords.1 htouched) path⟩

theorem reached_of_make {made : Screen τ} {setup : Setup}
    (h : make "/w/a.cple" (sourceSetup []) = (.ok made, setup)) :
    Reached Settings.Store.userDirectory "/w/a.cple" made := by
  refine .make (m := {}) (Settings.Store.load_of_lacks
    ⟨Action.eq_of_toOption ?_, Action.eq_ok_of_toOption ?_⟩) h
  · decide +kernel
  · decide +kernel

theorem Reached.start {directory : Path} {path : String} {made opened : Screen τ}
    (h : Reached directory path made) (hopened : perform .start made = (.ok (), opened)) :
    Reached directory path opened :=
  .act (e := .command .start) h (fun _ hbackground => nomatch hbackground) hopened

/-- Gaps around two words, of which one is in quotes. -/
theorem command_of_entered_quoted :
    let v := " -o 'it s'\t"
    let words : List CodePoints := ["-o", "it s"]
    ∃ (made opened t : Screen StyledText) (setup' t' : Setup),
      make "/w/a.cple" (sourceSetup []) = (.ok made, setup') ∧
      perform .start made = (.ok (), opened) ∧
      Reached Settings.Store.userDirectory "/w/a.cple" opened ∧
      Shell.split (CodePoints.ofString v) = .ok words ∧ Shell.Untouched v ∧
      Setup.set "compiler_args" (.text (trimmed v)) opened.engine.setup = (.ok (), t') ∧
      Visible t'.machine Settings.Store.userDirectory ∧
      handle (.argumentsEntered (trimmed v)) opened = (.ok (), t) ∧
      Compiler.command t.engine.setup "/w/a.cple" =
        .ok (CodePoints.ofString "/opt/cplebolt/bin/cple.out" :: CodePoints.ofString "/w/a.cple" ::
          words) ∧
      ∃ reloaded, Settings.Store.load Settings.Store.userDirectory t'.machine =
        (.ok reloaded, t'.machine) := by
  intro v words
  have hevaluated : (make "/w/a.cple" (sourceSetup [])).1.toOption.map
      (fun made : Screen StyledText =>
        let opened := perform .start made
        let r := Setup.set "compiler_args" (.text (trimmed v)) opened.2.engine.setup
        ((opened.1.toOption, (handle (.argumentsEntered (trimmed v)) opened.2).1.toOption),
          r.1.toOption, r.2.machine.refusals.isEmpty,
          (Compiler.resolve r.2).toOption.map Path.text)) =
      some ((some (), some ()), some (), true, some "/opt/cplebolt/bin/cple.out") := by
    decide +kernel
  obtain ⟨made, hmade, hends⟩ := Option.map_eq_some_iff.1 hevaluated
  simp only [Prod.mk.injEq] at hends
  obtain ⟨⟨hopened, hhandled⟩, hset, hnone, hcompiler⟩ := hends
  have hmade := Action.eq_of_toOption hmade
  have hopened := Action.eq_of_toOption hopened
  have hhandled := Action.eq_of_toOption hhandled
  have hset := Action.eq_of_toOption hset
  obtain ⟨compiler, hcompiler, htext⟩ := Option.map_eq_some_iff.1 hcompiler
  have hvisible : Visible (Setup.set "compiler_args" (.text (trimmed v))
      (perform .start made).2.engine.setup).2.machine Settings.Store.userDirectory := by
    constructor <;>
    · intro place _
      rw [Machine.refusal?, List.isEmpty_iff.1 hnone]
      rfl
  have hsplit : Shell.split (CodePoints.ofString v) = .ok words := by decide +kernel
  have huntouched : Shell.Untouched v :=
    ⟨List.all_eq_true.1 (by decide +kernel), by decide +kernel⟩
  have hreached := (reached_of_make hmade).start hopened
  obtain ⟨-, hsetup, -, hruns, hreload⟩ := command_of_entered StyledText hreached hsplit hset
  obtain ⟨reloaded, hload, -⟩ := hreload hvisible
  have hpasses := ((hruns _ [] _ hhandled nofun rfl).1 huntouched).passes
  refine ⟨made, _, _, _, _, hmade, hopened, hreached, hsplit, huntouched, hset, hvisible, hhandled,
    ?_, reloaded, hload⟩
  rw [← htext]
  refine hpasses.command compiler ?_
  rw [hsetup]
  exact Action.eq_ok_of_toOption hcompiler

/-- An escaped blank at the end is cut off from its backslash, and no command can be made. A blank at
the end that is no gap is cut off from its word. -/
theorem command_of_strayBlank :
    ∃ (made opened : Screen StyledText) (setup' : Setup),
      make "/w/a.cple" (sourceSetup []) = (.ok made, setup') ∧
      perform .start made = (.ok (), opened) ∧
      (Shell.split (CodePoints.ofString "x\\ ") = .ok ["x "] ∧
        (step (.enterArguments "x\\ ") opened).1 = .ok () ∧
        Compiler.command (step (.enterArguments "x\\ ") opened).2.engine.setup "/w/a.cple" =
          .error (.badArguments .danglingEscape)) ∧
      Shell.split (CodePoints.ofString "-o\u00a0") = .ok ["-o\u00a0"] ∧
        (step (.enterArguments "-o\u00a0") opened).1 = .ok () ∧
        Compiler.command (step (.enterArguments "-o\u00a0") opened).2.engine.setup "/w/a.cple" =
          .ok ["/opt/cplebolt/bin/cple.out", "/w/a.cple", "-o"] := by
  have hevaluated : (make "/w/a.cple" (sourceSetup [])).1.toOption.map
      (fun made : Screen StyledText =>
        let opened := perform .start made
        let escaped := step (.enterArguments "x\\ ") opened.2
        let stray := step (.enterArguments "-o\u00a0") opened.2
        ((opened.1.toOption, escaped.1.toOption, stray.1.toOption),
          Action.failure? (Compiler.command escaped.2.engine.setup "/w/a.cple"),
          (Compiler.command stray.2.engine.setup "/w/a.cple").toOption)) =
      some ((some (), some (), some ()), some (.badArguments .danglingEscape),
        some (["/opt/cplebolt/bin/cple.out", "/w/a.cple", "-o"] : List CodePoints)) := by
    decide +kernel
  obtain ⟨made, hmade, hends⟩ := Option.map_eq_some_iff.1 hevaluated
  simp only [Prod.mk.injEq] at hends
  obtain ⟨⟨hopened, hescaped, hstray⟩, hfails, hcommand⟩ := hends
  refine ⟨made, _, _, Action.eq_of_toOption hmade, Action.eq_of_toOption hopened,
    ⟨by decide +kernel, Action.eq_ok_of_toOption hescaped, ?_⟩,
    by decide +kernel, Action.eq_ok_of_toOption hstray, ?_⟩
  · exact Action.eq_error_of_failure? hfails
  · exact Action.eq_ok_of_toOption hcommand

end Screen

end Workbench
