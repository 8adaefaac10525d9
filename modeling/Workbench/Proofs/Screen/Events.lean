import Workbench.Proofs.CommandLine.Ending
import Workbench.Proofs.Engine.Updates
import Workbench.Proofs.Settings.Save
import Workbench.Proofs.View.Problems

/-!
# What the screen shows after events

Commands, messages and the work of the engine come in any order, one at a time; a library decides on
it. Each of them sets some parts of the status bar anew and leaves the others. One that fails ends the
screen.

* `Event`, `Event.run` : what can happen to a screen, and what comes of events;
* `status?`, `counts?`, `arguments?`, `views?` : what an event tells the screen;
* `said f s events` : what is told on the way, in order;
* `follows_act` : an event sets anew what it tells;
* `shows_last_said` : what one event sets anew or leaves is, after events, what was told last;
* `follows_refresh`, `refresh_of_not_showable` : the views after an update are those of the session,
  unless one of its diagnostics cannot be shown;
* `screen_of_events` : the status bar and the views after any events, and which events fail.
-/

namespace Workbench

open Settings (Value)
open Text (CodePoints)

/-! ## The bar -/

namespace StatusBar

/-- What a bar shows for a file, arguments, a status and numbers of errors and warnings. -/
def line (file arguments status : String) (errors warnings : Nat) : String :=
  "  │  ".intercalate <|
    (if file = "" then [] else ["📄 " ++ file]) ++
      (if arguments = "" then [] else ["⚙  " ++ arguments]) ++
      ["● " ++ status] ++
      (if errors = 0 then [] else ["❌ " ++ toString errors ++ " error(s)"]) ++
      (if warnings = 0 then [] else ["⚠  " ++ toString warnings ++ " warning(s)"])

theorem shown_eq_empty_iff {a : CodePoints} : a.shown = "" ↔ a = [] := by
  rw [CodePoints.shown, String.ofList_eq_empty_iff, List.map_eq_nil_iff]

/-- The bar has a text that its widget can show. -/
def IsShown (τ : Type) [Rich τ] (b : StatusBar) : Prop :=
  ∃ text, b.text = .ok text ∧ Rich.Displays τ text

/-- The text of a bar is that of its widget. -/
def Shows {τ : Type} [Rich τ] (b : StatusBar) (t : τ) : Prop :=
  ∃ text, b.text = .ok text ∧ Rich.display text = .ok t

/-- The parts of a bar that has a text as arguments. -/
structure IsOf (b : StatusBar) (file arguments status : String) (errors warnings : Nat) : Prop where
  file : b.file = file
  arguments : ∃ a : CodePoints, b.arguments = .text a ∧ a.shown = arguments
  status : b.status = status
  errors : b.errors = errors
  warnings : b.warnings = warnings

namespace IsOf

variable {b : StatusBar} {file arguments status : String} {errors warnings : Nat}

theorem text_eq (h : b.IsOf file arguments status errors warnings) :
    b.text = .ok (line file arguments status errors warnings) := by
  obtain ⟨a, ha, rfl⟩ := h.arguments
  obtain rfl := h.file
  obtain rfl := h.status
  have hholds : (Value.text a).holds = true ↔ ¬ a.shown = "" := by
    rw [shown_eq_empty_iff]
    simp [Value.holds]
  have hnumber : ∀ n : Nat, Number.text n = toString n := fun _ => rfl
  unfold text parts line
  rw [ha, h.errors, h.warnings, hnumber, hnumber]
  by_cases hempty : a.shown = ""
  · simp [Value.display?, hholds, hempty]
  · simp [Value.display?, hholds, hempty]

theorem isShown_iff {τ : Type} [Rich τ] (h : b.IsOf file arguments status errors warnings) :
    b.IsShown τ ↔ Rich.Displays τ (line file arguments status errors warnings) := by
  unfold IsShown
  rw [h.text_eq]
  exact ⟨fun ⟨_, htext, hshown⟩ => Except.ok.inj htext ▸ hshown, fun hshown => ⟨_, rfl, hshown⟩⟩

theorem withStatus (h : b.IsOf file arguments status errors warnings) (new : String) :
    (b.update { status := some new }).IsOf file arguments new errors warnings :=
  ⟨h.file, h.arguments, rfl, h.errors, h.warnings⟩

theorem withArguments (h : b.IsOf file arguments status errors warnings) (new : String) :
    (b.update { arguments := .text new }).IsOf file new status errors warnings :=
  ⟨h.file, ⟨new, rfl, CodePoints.shown_ofString new⟩, h.status, h.errors, h.warnings⟩

end IsOf

end StatusBar

/-! ## Sessions that can be shown -/

/-- All diagnostics of a session can be shown: their numbers have few enough digits. -/
def Session.IsShowable (s : Session) : Prop := ∀ d ∈ s.diagnostics, d.IsShowable

instance : DecidablePred Diagnostic.IsShowable := fun d =>
  decidable_of_iff ((d.line + 1).natAbs < Number.digitBound ∧
      (d.column + 1).natAbs < Number.digitBound)
    ⟨fun h => ⟨h.1, h.2⟩, fun h => ⟨h.line, h.column⟩⟩

instance (s : Session) : Decidable s.IsShowable := List.decidableBAll _ s.diagnostics

namespace Screen

/-- The views of diagnostics and of the log. -/
structure Views (τ : Type) where
  source : Option τ := none
  problems : Option τ := none
  problemCount : Nat := 0
  output : String := ""

section
variable {τ : Type}

def views (s : Screen τ) : Views τ := ⟨s.source, s.problems, s.problemCount, s.output⟩

/-- The views of a session, made from it alone. -/
def Views.of [Rich τ] (session : Session) : Views τ where
  source := some (View.source session.lines session.diagnostics)
  problems := some (View.problemsOf session.diagnostics)
  problemCount := session.errorCount + session.warningCount
  output := session.output.text

end

theorem length_diagnostics (session : Session) :
    session.diagnostics.length = session.errorCount + session.warningCount :=
  (Diagnostic.errorCount_add_warningCount session.diagnostics).symm

/-! ## Events -/

/-- What can happen to a screen. -/
inductive Event
  | command (c : Command)
  /-- a command of the engine begins, which the engine then carries out by itself -/
  | beginning
  /-- the messages that wait are taken to be delivered -/
  | collection
  | delivery (m : Message)
  /-- the engine is at work by itself -/
  | background (a : Action Engine Unit)

namespace Event

/-- The arguments that an event tells. -/
def arguments? : Event → Option String
  | .delivery (.argumentsEntered text) => some text
  | _ => none

variable {τ : Type} [Rich τ]

def act : Event → Action (Screen τ) Unit
  | .command c => perform c
  | .beginning => announce
  | .collection => modify fun s => { s with pending := [] }
  | .delivery m => handle m
  | .background a => onEngine a

/-- Events, one after the other. The first that fails is the last one. -/
def run (events : List Event) : Action (Screen τ) Unit := events.forM act

/-- The status that an event tells. -/
def status? (s : Screen τ) : Event → Option String
  | .command .compile | .command .run | .command .check | .command .probe | .beginning =>
    some "working"
  | .delivery .updated => some s.engine.session.status
  | _ => none

/-- The numbers of errors and warnings that an event tells. -/
def counts? (s : Screen τ) : Event → Option (Nat × Nat)
  | .delivery .updated => some (s.engine.session.errorCount, s.engine.session.warningCount)
  | _ => none

/-- The views that an event tells. -/
def views? (s : Screen τ) : Event → Option (Views τ)
  | .delivery .updated => some (Views.of s.engine.session)
  | _ => none

/-- What an event sets anew on the bar. -/
def tells (s : Screen τ) (e : Event) : StatusBar.Update where
  arguments := match e.arguments? with
    | some text => .text text
    | none => .null
  status := e.status? s
  errors := (e.counts? s).map (·.1)
  warnings := (e.counts? s).map (·.2)

/-- What events tell on the way, in order. -/
def said {α : Type} (f : Screen τ → Event → Option α) : Screen τ → List Event → List α
  | _, [] => []
  | s, e :: events => (f s e).toList ++ said f (e.act s).2 events

theorem run_cons (e : Event) (events : List Event) :
    run (e :: events) = (e.act >>= fun _ => run events : Action (Screen τ) Unit) := rfl

theorem run_cons_eq_ok {e : Event} {events : List Event} {s u : Screen τ} :
    run (e :: events) s = (.ok (), u) ↔ ∃ t, e.act s = (.ok (), t) ∧ run events t = (.ok (), u) := by
  rw [run_cons, Action.bind_eq_ok]
  exact ⟨fun ⟨_, t, hact, hrun⟩ => ⟨t, hact, hrun⟩, fun ⟨t, hact, hrun⟩ => ⟨(), t, hact, hrun⟩⟩

end Event

/-! ## One event -/

section
variable {τ : Type} [Rich τ]

/-- The bar has arguments that are a text, and is shown as it is. -/
structure BarShown (s : Screen τ) : Prop where
  arguments : ∃ a, s.bar.arguments = .text a
  text : ∃ t, s.bar.Shows t ∧ s.barText = some t

theorem BarShown.of_eq {s t : Screen τ} (h : BarShown s) (hbar : t.bar = s.bar)
    (htext : t.barText = s.barText) : BarShown t where
  arguments := hbar ▸ h.arguments
  text := by
    rw [hbar, htext]
    exact h.text

/-- The bar is set anew exactly if its widget can show it. -/
theorem updateBar_eq_ok {u : StatusBar.Update} {s t : Screen τ} :
    updateBar u s = (.ok (), t) ↔ ∃ x, (s.bar.update u).Shows x ∧
      t = { s with bar := s.bar.update u, barText := some x } := by
  simp only [updateBar, Action.bind_apply, Action.modify_apply, Action.ask_apply]
  constructor
  · intro h
    cases htext : (s.bar.update u).text with
    | error failure =>
      rw [htext] at h
      exact absurd (congrArg Prod.fst h) (by simp)
    | ok text =>
      rw [htext] at h
      cases hshown : (Rich.display text : Except Failure τ) with
      | error failure =>
        dsimp only at h
        rw [hshown] at h
        exact absurd (congrArg Prod.fst h) (by simp)
      | ok x =>
        dsimp only at h
        rw [hshown] at h
        exact ⟨x, ⟨text, htext, hshown⟩, (congrArg Prod.snd h).symm⟩
  · rintro ⟨x, ⟨text, htext, hshown⟩, rfl⟩
    rw [htext]
    dsimp only
    rw [hshown]

theorem updateBar_isOk_iff {u : StatusBar.Update} {s : Screen τ} :
    (updateBar u s).1 = .ok () ↔ (s.bar.update u).IsShown τ := by
  constructor
  · intro h
    have hok : updateBar u s = (.ok (), (updateBar u s).2) := Prod.ext h rfl
    obtain ⟨x, ⟨text, htext, hshown⟩, -⟩ := updateBar_eq_ok.1 hok
    exact ⟨text, htext, x, hshown⟩
  · rintro ⟨text, htext, x, hshown⟩
    rw [updateBar_eq_ok.2 ⟨x, ⟨text, htext, hshown⟩, rfl⟩]

/-- The engine is the same. -/
def SameEngine (s t : Screen τ) : Prop := t.engine = s.engine

omit [Rich τ] in
theorem SameEngine.trans {s t u : Screen τ} (h : SameEngine s t) (h' : SameEngine t u) :
    SameEngine s u := Eq.trans h' h

omit [Rich τ] in
theorem SameEngine.of_ok {α : Type} {a : Action (Screen τ) α} (ha : Action.Ensures SameEngine a)
    {s t : Screen τ} {x : α} (h : a s = (.ok x, t)) : t.engine = s.engine := by
  have hsame := ha s
  rwa [h] at hsame

theorem sameEngine_updateBar (u : StatusBar.Update) :
    Action.Ensures SameEngine (updateBar u : Action (Screen τ) Unit) := by
  refine Action.Ensures.bind SameEngine.trans (fun _ => rfl) fun _ => ?_
  refine Action.Ensures.bind SameEngine.trans (fun _ => rfl) fun _ => ?_
  exact Action.Ensures.bind SameEngine.trans (fun _ => rfl) fun _ _ => rfl

/-- The bar is an older one with what was told, and it is shown; the views are these. -/
structure Follows (b : StatusBar) (u : StatusBar.Update) (v : Views τ) (s : Screen τ) : Prop where
  bar : s.bar = b.update u
  shown : BarShown s
  views : s.views = v

theorem Follows.of_eq {b : StatusBar} {u : StatusBar.Update} {v : Views τ} {s t : Screen τ}
    (h : Follows b u v s) (hbar : t.bar = s.bar) (htext : t.barText = s.barText)
    (hviews : t.views = s.views) : Follows b u v t where
  bar := hbar.trans h.bar
  shown := h.shown.of_eq hbar htext
  views := hviews.trans h.views

/-- Where nothing is told, the bar stays as it is. -/
theorem BarShown.follows {s : Screen τ} (h : BarShown s) : Follows s.bar {} s.views s :=
  ⟨rfl, h, rfl⟩

theorem follows_updateBar {u : StatusBar.Update} {s t : Screen τ} (h : updateBar u s = (.ok (), t))
    (hu : u.arguments = .null ∧ (∃ a, s.bar.arguments = .text a) ∨ ∃ a, u.arguments = .text a) :
    Follows s.bar u s.views t := by
  obtain ⟨x, hx, rfl⟩ := updateBar_eq_ok.1 h
  refine ⟨rfl, ⟨?_, x, hx, rfl⟩, rfl⟩
  rcases hu with ⟨hnull, a, ha⟩ | ⟨a, ha⟩
  · exact ⟨a, by rw [StatusBar.update, hnull, ha]⟩
  · exact ⟨a, by rw [StatusBar.update, ha]⟩

/-- The engine may be at work: the bar and the views stay as they are. -/
theorem Follows.onEngine {b : StatusBar} {u : StatusBar.Update} {v : Views τ} {s t : Screen τ}
    (h : Follows b u v s) {α : Type} {a : Action Engine α} {x : α}
    (ht : onEngine a s = (.ok x, t)) : Follows b u v t := by
  obtain rfl := congrArg Prod.snd ht
  exact h.of_eq rfl rfl rfl

/-- The output may be shown first. Then the bar says that the engine is at work. -/
theorem exists_announce_eq (s : Screen τ) : ∃ shown, announce s =
    (do
      updateBar { status := some "working" }
      modify fun s => { s with working := s.working ++ s.barText.toList } :
        Action (Screen τ) Unit) { s with outputShown := shown } := by
  unfold announce
  rw [Action.bind_eq_of_ok (Action.get_apply s)]
  dsimp only
  split
  · exact ⟨true, rfl⟩
  · exact ⟨s.outputShown, rfl⟩

theorem follows_announce {s t : Screen τ} (h : announce s = (.ok (), t))
    (harguments : ∃ a, s.bar.arguments = .text a) :
    Follows s.bar { status := some "working" } s.views t := by
  obtain ⟨shown, hshown⟩ := exists_announce_eq s
  rw [hshown] at h
  obtain ⟨_, u, hupdate, hadd⟩ := Action.bind_eq_ok.1 h
  have hfollows := follows_updateBar hupdate (.inl ⟨rfl, harguments⟩)
  obtain rfl := congrArg Prod.snd hadd
  exact hfollows.of_eq rfl rfl rfl

theorem sameEngine_announce : Action.Ensures SameEngine (announce : Action (Screen τ) Unit) := by
  intro s
  obtain ⟨shown, hshown⟩ := exists_announce_eq s
  rw [hshown]
  have hrest : Action.Ensures SameEngine (do
      updateBar { status := some "working" }
      modify fun s => { s with working := s.working ++ s.barText.toList } :
        Action (Screen τ) Unit) :=
    Action.Ensures.bind SameEngine.trans (sameEngine_updateBar _) fun _ _ => rfl
  exact hrest { s with outputShown := shown }

theorem announce_isOk_iff {s : Screen τ} :
    (announce s).1 = .ok () ↔ (s.bar.update { status := some "working" }).IsShown τ := by
  obtain ⟨shown, hshown⟩ := exists_announce_eq s
  rw [hshown, ← updateBar_isOk_iff (s := { s with outputShown := shown }), Action.bind_apply]
  split
  · next t h => rw [h]; rfl
  · next failure t h => rw [h]

/-- A command of the engine is announced on the bar before it is carried out. -/
theorem follows_work {s t : Screen τ} {α : Type} {a : Action Engine α}
    (h : work a s = (.ok (), t)) (harguments : ∃ a, s.bar.arguments = .text a) :
    Follows s.bar { status := some "working" } s.views t := by
  obtain ⟨_, u, hannounce, hwork⟩ := Action.bind_eq_ok.1 h
  obtain ⟨x, v, hdone, hpure⟩ := Action.bind_eq_ok.1 hwork
  obtain rfl := congrArg Prod.snd hpure
  exact (follows_announce hannounce harguments).onEngine hdone

theorem engine_work {s : Screen τ} (h : (announce s).1 = .ok ()) {α : Type}
    (a : Action Engine α) : (work a s).2.engine = (a s.engine).2 := by
  have hannounce : announce s = (.ok (), (announce s).2) := Prod.ext h rfl
  have hengine : (announce s).2.engine = s.engine := sameEngine_announce s
  rw [work, Action.bind_eq_of_ok hannounce, Action.state_bind_pure, ← hengine]
  rfl

/-- Work of the screen that comes to its end is work of its engine. -/
theorem exists_of_work {s t : Screen τ} {α : Type} {a : Action Engine α}
    (h : work a s = (.ok (), t)) : ∃ x, a s.engine = (.ok x, t.engine) := by
  obtain ⟨_, u, hannounce, hwork⟩ := Action.bind_eq_ok.1 h
  obtain ⟨x, v, hdone, hpure⟩ := Action.bind_eq_ok.1 hwork
  have hengine := SameEngine.of_ok sameEngine_announce hannounce
  have hresult := congrArg (fun p => (p.1, p.2.engine)) hdone
  have hv : v = t := congrArg Prod.snd hpure
  rw [← hengine, ← hv]
  exact ⟨x, hresult⟩

/-- Arguments that were entered are shown once they are written. -/
theorem follows_takeArguments {s t : Screen τ} (h : BarShown s) {text : String}
    (ht : takeArguments text s = (.ok (), t)) :
    Follows s.bar { arguments := .text text } s.views t := by
  obtain ⟨x, u, hset, hupdate⟩ := Action.bind_eq_ok.1 ht
  have hkept := h.follows.onEngine hset
  have hfollows := follows_updateBar hupdate (.inr ⟨_, rfl⟩)
  rwa [hkept.bar, hkept.views] at hfollows

omit [Rich τ] in
theorem onEngine_onSetup {α : Type} (a : Action Setup α) (s : Screen τ) :
    onEngine (Engine.onSetup a) s = ((a s.engine.setup).1,
      { s with engine := { s.engine with setup := (a s.engine.setup).2 } }) := by
  show (_, { s with
    engine := _
    pending := s.pending ++ List.replicate (s.engine.updates.length - s.engine.updates.length) _ }) = _
  rw [Nat.sub_self, List.replicate_zero, List.append_nil]

/-- Arguments that are written are taken unless the bar cannot be shown with them. -/
theorem takeArguments_of_written {text : String} {s : Screen τ} {t : Setup}
    (h : Setup.set "compiler_args" (.text text) s.engine.setup = (.ok (), t)) :
    takeArguments text s =
      updateBar { arguments := .text text } { s with engine := { s.engine with setup := t } } := by
  have hset := onEngine_onSetup (Setup.set "compiler_args" (.text text)) s
  rw [h] at hset
  exact Action.bind_eq_of_ok hset

theorem takeArguments_isOk_iff {text : String} {s : Screen τ}
    (h : (Setup.set "compiler_args" (.text text) s.engine.setup).1 = .ok ()) :
    (takeArguments text s).1 = .ok () ↔ (s.bar.update { arguments := .text text }).IsShown τ := by
  rw [takeArguments_of_written (Prod.ext h rfl), updateBar_isOk_iff]

/-! ## Updates -/

theorem handle_updated (s : Screen τ) : handle .updated s = refresh s.engine.session s := by
  rw [handle, Action.bind_eq_of_ok (Action.get_apply s)]

/-- What an update of a session sets anew on the bar. -/
def barOf (session : Session) : StatusBar.Update where
  status := some session.status
  errors := some session.errorCount
  warnings := some session.warningCount

theorem isOf_barOf {b : StatusBar} {file arguments status : String} {errors warnings : Nat}
    (h : b.IsOf file arguments status errors warnings) (session : Session) :
    (b.update (barOf session)).IsOf file arguments session.status session.errorCount
      session.warningCount :=
  ⟨h.file, h.arguments, rfl, rfl, rfl⟩

/-- A session that can be shown sets the views and the bar anew. -/
theorem refresh_of_showable {session : Session} (h : session.IsShowable) (s : Screen τ) :
    refresh session s = updateBar (barOf session) { s with
      source := some (View.source session.lines session.diagnostics)
      problemCount := session.errorCount + session.warningCount
      problems := some (View.problemsOf session.diagnostics)
      output := session.output.text
      scrolls := s.scrolls + 1 } := by
  unfold refresh
  simp only [Action.bind_apply, Action.modify_apply, Action.ask_apply, View.problems_eq_ok h,
    length_diagnostics]
  rfl

/-- Otherwise the work ends before the list is made: the source and the number of problems are set
anew, and nothing else. -/
theorem refresh_of_not_showable {session : Session} (h : ¬ session.IsShowable) (s : Screen τ) :
    refresh session s = (.error .numberTooLong, { s with
      source := some (View.source session.lines session.diagnostics)
      problemCount := session.errorCount + session.warningCount }) := by
  have hsome : ∃ d ∈ session.diagnostics, ¬ d.IsShowable := by
    unfold Session.IsShowable at h
    push Not at h
    exact h
  unfold refresh
  simp only [Action.bind_apply, Action.modify_apply, Action.ask_apply, View.problems_eq_error hsome,
    length_diagnostics]

theorem refresh_isOk_iff {session : Session} {s : Screen τ} : (refresh session s).1 = .ok () ↔
    session.IsShowable ∧ (s.bar.update (barOf session)).IsShown τ := by
  by_cases h : session.IsShowable
  · rw [refresh_of_showable h, updateBar_isOk_iff]
    exact (and_iff_right h).symm
  · rw [refresh_of_not_showable h]
    exact iff_of_false (by simp) fun hshown => h hshown.1

theorem follows_refresh {session : Session} {s t : Screen τ} (h : refresh session s = (.ok (), t))
    (harguments : ∃ a, s.bar.arguments = .text a) :
    Follows s.bar (barOf session) (Views.of session) t := by
  have hshowable := (refresh_isOk_iff.1 (congrArg Prod.fst h)).1
  rw [refresh_of_showable hshowable] at h
  have hfollows := follows_updateBar h (.inl ⟨rfl, harguments⟩)
  exact ⟨hfollows.bar, hfollows.shown, hfollows.views⟩

/-! ## Any event -/

/-- An event sets anew what it tells, and leaves the rest of the bar and of the views. One case for
each kind of event. -/
theorem follows_act {s t : Screen τ} (h : BarShown s) {e : Event} (hstart : e ≠ .command .start)
    (ht : e.act s = (.ok (), t)) : Follows s.bar (e.tells s) ((e.views? s).getD s.views) t := by
  have hsame : ∀ {f : Screen τ → Screen τ}, (modify f : Action (Screen τ) PUnit) s = (.ok (), t) →
      (f s).bar = s.bar → (f s).barText = s.barText → (f s).views = s.views →
      Follows s.bar {} s.views t := by
    intro f hmodify hbar htext hviews
    obtain rfl := congrArg Prod.snd hmodify
    exact h.follows.of_eq hbar htext hviews
  cases e with
  | command c =>
    cases c with
    | start => exact absurd rfl hstart
    | compile | run | check => exact follows_work ht h.arguments
    | probe =>
      obtain ⟨_, u, hopen, hwork⟩ := Action.bind_eq_ok.1 ht
      obtain rfl := congrArg Prod.snd hopen
      have hfollows := follows_work hwork h.arguments
      exact hfollows
    | stop =>
      have hstop : onEngine (do Engine.stop; Engine.close) s = (.ok (), t) := ht
      exact h.follows.onEngine hstop
    | receive event =>
      have hreceive : onEngine (Engine.receive event) s = (.ok (), t) := ht
      exact h.follows.onEngine hreceive
    | toggleOutput | editArguments | leaveArguments | enterArguments => exact hsame ht rfl rfl rfl
  | beginning => exact follows_announce ht h.arguments
  | collection => exact hsame ht rfl rfl rfl
  | background a => exact h.follows.onEngine ht
  | delivery m =>
    cases m with
    | argumentsEntered text => exact follows_takeArguments h ht
    | updated => exact follows_refresh ((handle_updated s).symm.trans ht) h.arguments

/-! ## All events -/

/-- The bar is shown after any events, for the same file. -/
theorem barShown_run {s t : Screen τ} (h : BarShown s) {events : List Event}
    (hevents : .command .start ∉ events) (ht : Event.run events s = (.ok (), t)) :
    BarShown t ∧ t.bar.file = s.bar.file := by
  induction events generalizing s with
  | nil =>
    obtain rfl := congrArg Prod.snd ht
    exact ⟨h, rfl⟩
  | cons e events ih =>
    obtain ⟨he, hevents⟩ := not_or.1 (mt List.mem_cons.2 hevents)
    obtain ⟨u, hact, hrun⟩ := Event.run_cons_eq_ok.1 ht
    have hfollows := follows_act h (Ne.symm he) hact
    obtain ⟨hshown, hfile⟩ := ih hfollows.shown hevents hrun
    refine ⟨hshown, hfile.trans ?_⟩
    rw [hfollows.bar]
    rfl

/-- What each event sets anew if it tells it, and leaves otherwise, is after events what was told
last. -/
theorem shows_last_said {α : Type} {f : Screen τ → Event → Option α} (Shows : Screen τ → α → Prop)
    (hstep : ∀ {s t : Screen τ} {e : Event} {a : α},
      Follows s.bar (e.tells s) ((e.views? s).getD s.views) t → Shows s a → Shows t ((f s e).getD a))
    {s t : Screen τ} (h : BarShown s) {a : α} (ha : Shows s a) {events : List Event}
    (hevents : .command .start ∉ events) (ht : Event.run events s = (.ok (), t)) :
    Shows t ((Event.said f s events).getLastD a) := by
  induction events generalizing s a with
  | nil =>
    obtain rfl := congrArg Prod.snd ht
    exact ha
  | cons e events ih =>
    obtain ⟨he, hevents⟩ := not_or.1 (mt List.mem_cons.2 hevents)
    obtain ⟨u, hact, hrun⟩ := Event.run_cons_eq_ok.1 ht
    have hfollows := follows_act h (Ne.symm he) hact
    have hlast : (Event.said f s (e :: events)).getLastD a =
        (Event.said f u events).getLastD ((f s e).getD a) := by
      rw [Event.said, hact]
      cases f s e with
      | none => rfl
      | some b => exact List.getLastD_cons
    rw [hlast]
    exact ih hfollows.shown (hstep hfollows ha) hevents hrun

theorem status_run {s t : Screen τ} (h : BarShown s) {events : List Event}
    (hevents : .command .start ∉ events) (ht : Event.run events s = (.ok (), t)) :
    t.bar.status = (Event.said Event.status? s events).getLastD s.bar.status := by
  refine shows_last_said (fun s status => s.bar.status = status) ?_ h rfl hevents ht
  rintro s t e status hfollows rfl
  rw [hfollows.bar]
  rfl

theorem counts_run {s t : Screen τ} (h : BarShown s) {errors warnings : Nat}
    (herrors : s.bar.errors = errors) (hwarnings : s.bar.warnings = warnings) {events : List Event}
    (hevents : .command .start ∉ events) (ht : Event.run events s = (.ok (), t)) :
    let counts := (Event.said Event.counts? s events).getLastD (errors, warnings)
    t.bar.errors = counts.1 ∧ t.bar.warnings = counts.2 := by
  refine shows_last_said (fun s (counts : Nat × Nat) =>
    s.bar.errors = counts.1 ∧ s.bar.warnings = counts.2) ?_ h ⟨herrors, hwarnings⟩ hevents ht
  rintro s t e counts hfollows ⟨herrors, hwarnings⟩
  rw [hfollows.bar]
  simp only [StatusBar.update, Event.tells]
  cases e.counts? s with
  | none => exact ⟨herrors, hwarnings⟩
  | some counts => exact ⟨rfl, rfl⟩

theorem arguments_run {s t : Screen τ} (h : BarShown s) {a : CodePoints}
    (ha : s.bar.arguments = .text a) {events : List Event}
    (hevents : .command .start ∉ events) (ht : Event.run events s = (.ok (), t)) :
    ∃ b, t.bar.arguments = .text b ∧
      b.shown = (Event.said (fun _ => Event.arguments?) s events).getLastD a.shown := by
  refine shows_last_said (fun s text =>
    ∃ b, s.bar.arguments = .text b ∧ b.shown = text) ?_ h ⟨a, ha, rfl⟩ hevents ht
  rintro s t e text hfollows ⟨b, hb, hshown⟩
  rw [hfollows.bar]
  simp only [StatusBar.update, Event.tells]
  cases e.arguments? with
  | none => exact ⟨b, hb, hshown⟩
  | some text => exact ⟨text, rfl, CodePoints.shown_ofString text⟩

theorem views_run {s t : Screen τ} (h : BarShown s) {events : List Event}
    (hevents : .command .start ∉ events) (ht : Event.run events s = (.ok (), t)) :
    t.views = (Event.said Event.views? s events).getLastD s.views := by
  refine shows_last_said (fun s views => s.views = views) ?_ h rfl hevents ht
  rintro s t e views hfollows rfl
  exact hfollows.views

/-- All of the bar after events. -/
theorem isOf_run {s t : Screen τ} (h : BarShown s) {file arguments status : String}
    {errors warnings : Nat} (hs : s.bar.IsOf file arguments status errors warnings)
    {events : List Event} (hevents : .command .start ∉ events)
    (ht : Event.run events s = (.ok (), t)) :
    let counts := (Event.said Event.counts? s events).getLastD (errors, warnings)
    t.bar.IsOf file ((Event.said (fun _ => Event.arguments?) s events).getLastD arguments)
      ((Event.said Event.status? s events).getLastD status) counts.1 counts.2 := by
  obtain ⟨herrors, hwarnings⟩ := counts_run h hs.errors hs.warnings hevents ht
  obtain ⟨a, ha, hshown⟩ := hs.arguments
  exact
    { file := (barShown_run h hevents ht).2.trans hs.file
      arguments := hshown ▸ arguments_run h ha hevents ht
      status := hs.status ▸ status_run h hevents ht
      errors := herrors
      warnings := hwarnings }

/-- The text of the bar is what its widget makes of the parts. -/
theorem BarShown.display [LawfulRich τ] {s : Screen τ} (h : BarShown s)
    {file arguments status : String} {errors warnings : Nat}
    (hs : s.bar.IsOf file arguments status errors warnings) :
    let line := StatusBar.line file arguments status errors warnings
    ∃ t, s.barText = some t ∧ Rich.display line = .ok t ∧
      (Rich.Unmarked line → Rich.plain t = Rich.visible line) := by
  obtain ⟨t, ⟨text, htext, ht⟩, hbar⟩ := h.text
  obtain rfl := Except.ok.inj (hs.text_eq.symm.trans htext)
  refine ⟨t, hbar, ht, fun hunmarked => ?_⟩
  obtain ⟨t', ht', hplain⟩ := LawfulRich.display_unmarked (τ := τ) hunmarked
  rwa [Except.ok.inj (ht.symm.trans ht')]

/-- A command with the messages that it causes is a row of events. -/
theorem step_eq_run (c : Command) (s : Screen τ) : step c s =
    Event.run (.command c :: .collection :: (perform c s).2.pending.map .delivery) s := by
  have hdeliver : ∀ ms : List Message,
      (ms.forM handle : Action (Screen τ) Unit) = Event.run (ms.map .delivery) := by
    intro ms
    induction ms with
    | nil => rfl
    | cons m ms ih =>
      rw [List.map_cons, Event.run_cons, ← ih]
      rfl
  rw [Event.run_cons, Event.run_cons, step, ← hdeliver]
  show (perform c >>= _) s = (perform c >>= _) s
  rw [Action.bind_apply, Action.bind_apply]
  split
  · next t h => rw [h]; rfl
  · rfl

/-! ## From the start -/

/-- The start shows the file and the arguments of the settings. -/
theorem of_start {made opened : Screen τ} (hbar : made.bar = {}) {a : CodePoints}
    (ha : made.configuredArguments = .text a) (h : perform .start made = (.ok (), opened)) :
    BarShown opened ∧ opened.views = made.views ∧
      opened.bar.IsOf (Path.ofText made.engine.session.path).name a.shown "idle" 0 0 ∧
      opened.engine = (Engine.start made.engine).2 := by
  rw [perform, Action.bind_eq_of_ok (Action.get_apply made)] at h
  obtain ⟨_, t, hupdate, hstart⟩ := Action.bind_eq_ok.1 h
  have hkept := (follows_updateBar hupdate (.inr ⟨a, ha⟩)).onEngine hstart
  refine ⟨hkept.shown, hkept.views, ?_, ?_⟩
  · rw [hkept.bar, hbar, ha]
    exact ⟨rfl, ⟨a, rfl, rfl⟩, rfl, rfl, rfl⟩
  · have hengine := SameEngine.of_ok (sameEngine_updateBar _) hupdate
    obtain rfl := congrArg Prod.snd hstart
    exact congrArg (fun e => (Engine.start e).2) hengine

omit [Rich τ] in
theorem of_make {path : String} {setup setup' : Setup} {made : Screen τ}
    (h : make path setup = (.ok made, setup')) :
    made.bar = {} ∧ made.views = {} ∧ made.engine.session.path = path ∧
      made.engine.setup = (Compiler.greet setup).2 := by
  obtain ⟨engine, t, hengine, hmade⟩ := Action.bind_eq_ok.1 h
  obtain ⟨hmade, -⟩ := Prod.mk.inj hmade
  obtain rfl := Except.ok.inj hmade
  exact ⟨rfl, rfl, congrArg Session.path (Engine.session_of_make hengine),
    Engine.setup_of_make hengine⟩

end

/-- After events none of which failed, the bar of a screen shows what the widget makes of the name of
its file, the arguments that were entered last, at first those of the settings, and the status and the
numbers that were told last. The views are those that were told last. An update makes them from the
session alone, and one problem is counted for each error and each warning; if a diagnostic cannot be
shown, it ends halfway and fails. Otherwise an event that sets the bar anew fails only where the widget
cannot show the text. -/
theorem screen_of_events (τ : Type) [Rich τ] [LawfulRich τ] {path : String} {setup setup' : Setup}
    {made opened s : Screen τ} {a : CodePoints} (hmade : make path setup = (.ok made, setup'))
    (ha : made.configuredArguments = .text a) (hopened : perform .start made = (.ok (), opened))
    {events : List Event} (hevents : .command .start ∉ events)
    (hrun : Event.run events opened = (.ok (), s)) :
    let arguments := (Event.said (fun _ => Event.arguments?) opened events).getLastD a.shown
    let status := (Event.said Event.status? opened events).getLastD "idle"
    let counts := (Event.said Event.counts? opened events).getLastD (0, 0)
    let line := StatusBar.line (Path.ofText path).name
    let session := s.engine.session
    (∃ t, s.barText = some t ∧ Rich.display (line arguments status counts.1 counts.2) = .ok t ∧
        (Rich.Unmarked (line arguments status counts.1 counts.2) →
          Rich.plain t = Rich.visible (line arguments status counts.1 counts.2))) ∧
      s.views = (Event.said Event.views? opened events).getLastD {} ∧
      ((handle .updated s).1 = .ok () ↔ session.IsShowable ∧
        Rich.Displays τ
          (line arguments session.status session.errorCount session.warningCount)) ∧
      (∀ t, handle .updated s = (.ok (), t) →
        t.views = Views.of session ∧
          t.problemCount = session.errorCount + session.warningCount ∧
          t.bar.status = session.status ∧
          t.bar.errors = session.errorCount ∧
          t.bar.warnings = session.warningCount) ∧
      (¬ session.IsShowable → handle .updated s = (.error .numberTooLong, { s with
        source := some (View.source session.lines session.diagnostics)
        problemCount := session.errorCount + session.warningCount })) ∧
      ((announce s).1 = .ok () ↔
        Rich.Displays τ (line arguments "working" counts.1 counts.2)) ∧
      (∀ text : String, (Setup.set "compiler_args" (.text text) s.engine.setup).1 = .ok () →
        ((handle (.argumentsEntered text) s).1 = .ok () ↔
          Rich.Displays τ (line text status counts.1 counts.2))) ∧
      ∀ c, step c s =
        Event.run (.command c :: .collection :: (perform c s).2.pending.map .delivery) s := by
  intro arguments status counts line session
  obtain ⟨hbar, hviews, hpath, -⟩ := of_make hmade
  obtain ⟨hstarted, hopenedViews, hfirst, -⟩ := of_start hbar ha hopened
  rw [hpath] at hfirst
  have hlast : s.bar.IsOf (Path.ofText path).name arguments status counts.1 counts.2 :=
    isOf_run hstarted hfirst hevents hrun
  have hshown := (barShown_run hstarted hevents hrun).1
  refine ⟨hshown.display hlast, ?_, ?_, fun t ht => ?_, fun h => ?_, ?_, fun text hset => ?_,
    fun c => step_eq_run c s⟩
  · rw [views_run hstarted hevents hrun, hopenedViews, hviews]
  · rw [handle_updated, refresh_isOk_iff, (isOf_barOf hlast session).isShown_iff]
  · rw [handle_updated] at ht
    obtain ⟨hbar, -, hviews⟩ := follows_refresh ht hshown.arguments
    have hafter := isOf_barOf hlast session
    rw [← hbar] at hafter
    exact ⟨hviews, congrArg Views.problemCount hviews, hafter.status, hafter.errors, hafter.warnings⟩
  · rw [handle_updated, refresh_of_not_showable h]
  · rw [announce_isOk_iff, (hlast.withStatus "working").isShown_iff]
  · rw [handle, takeArguments_isOk_iff hset, (hlast.withArguments text).isShown_iff]

/-- The settings of a user who has none, on a machine with a source and the compiler. -/
def sourceSetup (outcomes : List Machine.Outcome) : Setup where
  machine := CommandLine.sourceMachine outcomes
  settings := { directory := Settings.Store.userDirectory, values := Settings.defaults }

/-- Is a value the empty text? -/
def isEmptyText : Value → Bool
  | .text [] => true
  | _ => false

theorem eq_of_isEmptyText {v : Value} (h : isEmptyText v = true) : v = .text [] := by
  unfold isEmptyText at h
  split at h
  · rfl
  · exact nomatch h

/-- The engine finds an error and a warning and says so. -/
def findsTwo : Action Engine Unit :=
  Engine.change fun s =>
    { s.file s.path [⟨0, 0, .error, "x"⟩, ⟨1, 0, .warning, "y"⟩] with status := "failed" }

theorem unmarked_of_all {s : String} (h : s.toList.all (fun c => c != '[' && c != ':') = true) :
    Rich.Unmarked s :=
  fun c hc => by simpa using List.all_eq_true.1 h c hc

/-- The engine finds two problems, which are shown, and then arguments are entered. -/
def twoFound : List Event :=
  [.background findsTwo, .delivery .updated, .delivery (.argumentsEntered "-O2")]

theorem screen_of_findsTwo :
    ∃ (made opened s : Screen StyledText) (setup' : Setup) (t : StyledText),
      make "/w/a.cple" (sourceSetup []) = (.ok made, setup') ∧
      made.configuredArguments = .text [] ∧ perform .start made = (.ok (), opened) ∧
      .command .start ∉ twoFound ∧ Event.run twoFound opened = (.ok (), s) ∧
      s.barText = some t ∧
      t.plain =
        "📄 a.cple  │  ⚙  -O2  │  ● failed  │  ❌ 1 error(s)  │  ⚠  1 warning(s)".toList := by
  have hends : (make "/w/a.cple" (sourceSetup [])).1.toOption.map
      (fun made : Screen StyledText =>
        let opened := perform .start made
        (isEmptyText made.configuredArguments, opened.1.toOption,
          (Event.run twoFound opened.2).1.toOption)) = some (true, some (), some ()) := by
    decide +kernel
  have hsaid : (make "/w/a.cple" (sourceSetup [])).1.toOption.map
      (fun made : Screen StyledText =>
        let opened := (perform .start made).2
        (Event.said (fun _ => Event.arguments?) opened twoFound,
          Event.said Event.status? opened twoFound, Event.said Event.counts? opened twoFound)) =
      some (["-O2"], ["failed"], [(1, 1)]) := by decide +kernel
  obtain ⟨made, hmade, hends⟩ := Option.map_eq_some_iff.1 hends
  rw [hmade, Option.map_some] at hsaid
  simp only [Prod.mk.injEq, Option.some.injEq] at hends hsaid
  obtain ⟨hempty, hopened, hrun⟩ := hends
  obtain ⟨harguments, hstatus, hcounts⟩ := hsaid
  have hmade := Action.eq_of_toOption hmade
  have hempty := eq_of_isEmptyText hempty
  have hopened := Action.eq_of_toOption hopened
  have hrun := Action.eq_of_toOption hrun
  have hnostart : Event.command .start ∉ twoFound := by simp [twoFound]
  obtain ⟨⟨t, ht, -, hplain⟩, -⟩ :=
    screen_of_events StyledText hmade hempty hopened hnostart hrun
  rw [harguments, hstatus, hcounts] at hplain
  have hunmarked := unmarked_of_all
    (s := StatusBar.line (Path.ofText "/w/a.cple").name "-O2" "failed" 1 1) (by decide +kernel)
  refine ⟨made, _, _, _, t, hmade, hempty, hopened, hnostart, hrun, ht,
    (hplain hunmarked).trans ?_⟩
  decide +kernel

/-! ## An update that ends halfway -/

theorem overlooks_noted : Engine.Overlooks fun e e' => Engine.Noted e.setup e'.setup where
  refl e := .refl e.setup
  trans := Engine.Noted.trans
  said e _ := .refl e.setup
  noted _ _ h := h

/-- The start reads the source, and launches nothing. -/
theorem noted_start (e : Engine) : Engine.Noted e.setup (Engine.start e).2.setup := by
  have htrans : ∀ {e e' e'' : Engine}, Engine.Noted e.setup e'.setup →
      Engine.Noted e'.setup e''.setup → Engine.Noted e.setup e''.setup := Engine.Noted.trans
  refine Action.Ensures.bind (R := fun e e' => Engine.Noted e.setup e'.setup) htrans ?_ ?_ e
  · refine Action.Ensures.bind htrans overlooks_noted.ensures_get fun e => ?_
    split
    · exact fun e => .refl e.setup
    · exact overlooks_noted.ensures_note _
    · exact fun e => .refl e.setup
  · refine fun _ => Action.Ensures.bind htrans (fun e => .refl e.setup) fun _ => ?_
    refine Action.Ensures.bind htrans overlooks_noted.ensures_get fun e => ?_
    split
    · exact fun e => .refl e.setup
    · exact fun e => .refl e.setup

/-- A compilation that launched the compiler ends with its status. -/
theorem status_of_launched {e e' : Engine} {r : Bool} (h : Engine.Compiles e r e')
    (hlaunched : e'.launched ≠ e.launched) :
    ∃ c, e'.session.lastCompilation = some c ∧ e'.session.status = Engine.statusText c := by
  cases h with
  | refused hsource => exact absurd rfl hlaunched
  | @missing p s hp hfound hnote =>
    have hnothing := (Engine.noted_of_reread hp.reread).trans (Engine.noted_of_noteOn hnote)
    exact absurd hnothing.launches hlaunched
  | @built p b hp hfound hb => exact ⟨b.compilation, rfl, rfl⟩

/-- The session after a compilation that failed with an error about the last column that can be
read. -/
structure FailedInLastColumn (s : Session) : Prop where
  diagnostics : s.diagnostics = [CommandLine.lastColumn.diagnostic]
  status : ∃ seconds, s.status = "failed (" ++ seconds ++ "s)"

namespace FailedInLastColumn

theorem of_compiles {e e' : Engine} {r : Bool} (h : Engine.Compiles e r e')
    (hlaunched : e'.launched ≠ e.launched)
    (hending : e.setup.machine.nextEnding = .exited 1 "" CommandLine.lastColumn.text) :
    FailedInLastColumn e'.session := by
  obtain ⟨c, hdecides, -, herrors, hsucceeded⟩ := h.wrote hlaunched hending
  have hfailed : c.succeeded = false := Bool.eq_false_iff.2 fun hgood => nomatch hsucceeded.1 hgood
  obtain ⟨c', hlast, hstatus⟩ := status_of_launched h hlaunched
  obtain rfl := Option.some.inj (hdecides.last.symm.trans hlast)
  refine ⟨hdecides.diagnostics.trans (CommandLine.findings_of_lastColumn hfailed herrors),
    showSeconds c.seconds, ?_⟩
  rw [hstatus, Engine.statusText, hfailed]
  rfl

variable {s : Session}

theorem hidden (h : FailedInLastColumn s) : ¬ s.IsShowable := by
  intro hshowable
  have hcolumn := (hshowable _ (h.diagnostics ▸ List.mem_singleton_self _)).column
  have hlast : CommandLine.lastColumn.diagnostic.column + 1 = Number.digitBound :=
    Diagnostic.last_column_succ
  rw [hlast, Int.natAbs_natCast] at hcolumn
  exact Nat.lt_irrefl _ hcolumn

theorem errorCount (h : FailedInLastColumn s) : s.errorCount = 1 := by
  rw [Session.errorCount, h.diagnostics]
  rfl

theorem warningCount (h : FailedInLastColumn s) : s.warningCount = 0 := by
  rw [Session.warningCount, h.diagnostics]
  rfl

end FailedInLastColumn

/-- The settings of a user who has none, where the compiler says this. -/
def lastColumnSetup : Setup :=
  sourceSetup [{ ending := .exited 1 "" CommandLine.lastColumn.text }]

/-- A compilation fails with an error about the last column that can be read, and the update that
shows this ends halfway: the problem is counted, but there is no list, and the bar still says that the
engine is at work and that there are no errors. -/
theorem halfway_of_lastColumn :
    ∃ (made opened s t : Screen StyledText) (setup' : Setup) (x : StyledText),
      make "/w/a.cple" lastColumnSetup = (.ok made, setup') ∧
        made.configuredArguments = .text [] ∧ perform .start made = (.ok (), opened) ∧
        Event.run [.command .compile] opened = (.ok (), s) ∧
        (∃ seconds, s.engine.session.status = "failed (" ++ seconds ++ "s)") ∧
        s.engine.session.errorCount = 1 ∧ handle .updated s = (.error .numberTooLong, t) ∧
        t.problemCount = 1 ∧ t.problems = none ∧ t.barText = some x ∧
        x.plain = "📄 a.cple  │  ● working".toList := by
  have hevaluated : (make "/w/a.cple" lastColumnSetup).1.toOption.map
      (fun made : Screen StyledText =>
        let opened := perform .start made
        let compiled := perform .compile opened.2
        (isEmptyText made.configuredArguments, opened.1.toOption, compiled.1.toOption,
          opened.2.engine.launched.length, compiled.2.engine.launched.length)) =
      some (true, some (), some (), 0, 1) := by decide +kernel
  obtain ⟨made, hmade, hends⟩ := Option.map_eq_some_iff.1 hevaluated
  simp only [Prod.mk.injEq] at hends
  obtain ⟨hempty, hopened, hcompiled, hnone, hone⟩ := hends
  have hmade := Action.eq_of_toOption hmade
  have hempty := eq_of_isEmptyText hempty
  have hopened := Action.eq_of_toOption hopened
  have hcompiled := Action.eq_of_toOption hcompiled
  obtain ⟨hbar, hviews, hpath, hsetup⟩ := of_make hmade
  obtain ⟨hstarted, hopenedViews, hfirst, hengine⟩ := of_start hbar hempty hopened
  obtain ⟨r, hcompiles⟩ := exists_of_work hcompiled
  -- what the compiler will do is not changed by the start
  have hending : (perform .start made).2.engine.setup.machine.nextEnding =
      .exited 1 "" CommandLine.lastColumn.text := by
    rw [hengine, (noted_start made.engine).nextEnding, hsetup, (waits_greet _).nextEnding]
    rfl
  have hlaunched : (perform .compile (perform .start made).2).2.engine.launched ≠
      (perform .start made).2.engine.launched := by
    intro hsame
    rw [hsame, hnone] at hone
    exact nomatch hone
  have hfailed := FailedInLastColumn.of_compiles (Engine.compile_eq_ok.1 hcompiles) hlaunched hending
  have hact : (Event.command .compile).act (perform .start made).2 = (.ok (), _) := hcompiled
  have hrun : Event.run [.command .compile] (perform .start made).2 = (.ok (), _) :=
    Event.run_cons_eq_ok.2 ⟨_, hact, rfl⟩
  have hnostart : Event.command .start ∉ [.command .compile] := by simp
  rw [hpath] at hfirst
  have hlast : (perform .compile (perform .start made).2).2.bar.IsOf (Path.ofText "/w/a.cple").name
      "" "working" 0 0 := isOf_run hstarted hfirst hnostart hrun
  obtain ⟨x, hx, -, hplain⟩ := (barShown_run hstarted hnostart hrun).1.display hlast
  have hsame := views_run hstarted hnostart hrun
  refine ⟨made, _, _, _, _, x, hmade, hempty, hopened, hrun, hfailed.status, hfailed.errorCount,
    (handle_updated _).trans (refresh_of_not_showable hfailed.hidden _), ?_, ?_, hx, ?_⟩
  · rw [hfailed.errorCount, hfailed.warningCount]
  · exact congrArg Views.problems (hsame.trans (hopenedViews.trans hviews))
  · refine (hplain (unmarked_of_all (by decide +kernel))).trans ?_
    decide +kernel

end Screen

end Workbench
