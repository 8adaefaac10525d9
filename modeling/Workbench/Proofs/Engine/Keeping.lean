import Workbench.Proofs.Compiler.Arguments
import Workbench.Proofs.Engine.Updates

/-!
# What an engine keeps

Nothing that an engine does changes its settings or its source. So the compiler gets the same
arguments in each launch, until the settings are changed from outside.

* `IsLaunch settings path l` : a launch of the compiler with the arguments of the settings, or of a
  program without arguments;
* `Retains e e'` : the settings and the source are the same, and nothing else was launched;
* `Loyal path a` : work for a source that does no more than that, even where it fails;
* `loyal_compile`, `loyal_check`, `loyal_run`, `loyal_probe`, `loyal_start`, `loyal_close`,
  `loyal_receive` : all that an engine does.
-/

namespace Workbench

open Machine (Launch)

/-- The compiler is launched with the arguments of the settings, or a program without any. -/
def Compiler.IsLaunch (settings : Settings.Store) (path : String) (l : Launch) : Prop :=
  (∃ program : Path, l.command = [Text.CodePoints.ofString program.text]) ∨
    ∃ (compiler : Path) (words : List Text.CodePoints), arguments settings = .ok words ∧
      l.command = Text.CodePoints.ofString compiler.text :: Text.CodePoints.ofString path :: words

namespace Engine

open Compiler (IsLaunch)

/-- The settings and the source are the same, and nothing but the compiler and programs were
launched. -/
structure Retains (e e' : Engine) : Prop where
  settings : e'.setup.settings = e.setup.settings
  path : e'.session.path = e.session.path
  launches : ∃ new, e'.launched = e.launched ++ new ∧
    ∀ l ∈ new, IsLaunch e.setup.settings e.session.path l

theorem Retains.of_still {e e' : Engine} (hsettings : e'.setup.settings = e.setup.settings)
    (hpath : e'.session.path = e.session.path) (hlaunched : e'.launched = e.launched) :
    Retains e e' :=
  ⟨hsettings, hpath, [], by rw [hlaunched, List.append_nil], fun _ hl => nomatch hl⟩

theorem Retains.refl (e : Engine) : Retains e e := .of_still rfl rfl rfl

theorem Retains.trans {e₁ e₂ e₃ : Engine} (h : Retains e₁ e₂) (h' : Retains e₂ e₃) : Retains e₁ e₃ := by
  obtain ⟨new, hnew, hlaunches⟩ := h.launches
  obtain ⟨new', hnew', hlaunches'⟩ := h'.launches
  rw [h.settings, h.path] at hlaunches'
  refine ⟨h'.settings.trans h.settings, h'.path.trans h.path, new ++ new', ?_, ?_⟩
  · rw [hnew', hnew, List.append_assoc]
  · exact List.forall_mem_append.2 ⟨hlaunches, hlaunches'⟩

theorem overlooks_retains : Overlooks Retains where
  refl := Retains.refl
  trans := Retains.trans
  said e texts := by
    rw [Session.foldl_say]
    exact .of_still rfl rfl rfl
  noted e s h := .of_still h.settings rfl h.launches

/-! ## Work that keeps them -/

/-- Work for a source that keeps the settings and the source, even where it fails. -/
def Loyal {α : Type} (path : String) (a : Action Engine α) : Prop :=
  ∀ e, e.session.path = path → Retains e (a e).2

section
variable {α β : Type} {path : String}

theorem loyal_of_ensures {a : Action Engine α} (h : Action.Ensures Retains a) : Loyal path a :=
  fun e _ => h e

theorem Loyal.bind {a : Action Engine α} {f : α → Action Engine β} (ha : Loyal path a)
    (hf : ∀ x, Loyal path (f x)) : Loyal path (a >>= f) := by
  intro e he
  refine Action.bind_ensures Retains.trans (ha e he) fun x t ht => hf x t ?_
  have hkept := ha e he
  rw [ht] at hkept
  exact hkept.path.trans he

theorem Loyal.answer {a : Action Engine α} (ha : Loyal path a) (y : β) :
    Loyal path (a >>= fun _ => (pure y : Action Engine β)) :=
  ha.bind fun _ => loyal_of_ensures (overlooks_retains.ensures_pure y)

theorem Loyal.of_get {f : Engine → Action Engine α}
    (hf : ∀ e, e.session.path = path → Loyal path (f e)) : Loyal path (get >>= f) := by
  intro e he
  rw [Action.bind_eq_of_ok (Action.get_apply e)]
  exact hf e he e he

theorem Loyal.forM {xs : List α} {f : α → Action Engine PUnit} (hf : ∀ x, Loyal path (f x)) :
    Loyal path (xs.forM f) := by
  induction xs with
  | nil => exact loyal_of_ensures Retains.refl
  | cons x xs ih =>
    show Loyal path (f x >>= fun _ => xs.forM f)
    exact (hf x).bind fun _ => ih

theorem loyal_pure (x : α) : Loyal path (pure x) := loyal_of_ensures Retains.refl

theorem loyal_throw (failure : Failure) : Loyal path (throw failure : Action Engine α) :=
  loyal_of_ensures Retains.refl

theorem loyal_askSetup (f : Setup → Except Failure α) : Loyal path (askSetup f) :=
  loyal_of_ensures Retains.refl

theorem loyal_say (text : String) : Loyal path (say text) :=
  loyal_of_ensures (overlooks_retains.ensures_say text)

theorem loyal_sayAll (texts : List String) : Loyal path (sayAll texts) :=
  loyal_of_ensures (overlooks_retains.ensures_sayAll texts)

theorem loyal_note (text : String) : Loyal path (note text) :=
  loyal_of_ensures (overlooks_retains.ensures_note text)

theorem loyal_change {f : Session → Session} (hf : ∀ s, (f s).path = s.path) :
    Loyal path (change f) := fun e _ => .of_still rfl (hf e.session) rfl

theorem loyal_setStatus (status : String) : Loyal path (setStatus status) :=
  loyal_change fun _ => rfl

theorem loyal_publish : Loyal path publish := fun _ _ => .of_still rfl rfl rfl

theorem loyal_finish (status : String) : Loyal path (finish status) :=
  (loyal_setStatus _).bind fun _ => loyal_publish

theorem loyal_onWatcher (a : Action Watcher α) : Loyal path (onWatcher a) :=
  fun _ _ => .of_still rfl rfl rfl

end

/-! ## Processes -/

/-- A compilation leaves everything as it is, or launches the compiler with its command. -/
theorem setup_compile (source : String) (s : Setup) : (Compiler.compile source s).2 = s ∨
    ∃ words, Compiler.command s source = .ok words ∧
      (Compiler.compile source s).2 =
        s.afterLaunch (Compiler.compilerLaunch s.settings source words) := by
  cases hcompiler : Compiler.resolve s with
  | error e =>
    have hask : Action.ask Compiler.resolve s = (.error e, s) := Prod.ext hcompiler rfl
    refine .inl ?_
    rw [Compiler.compile, Action.bind_eq_of_error hask]
  | ok compiler =>
    have hask : Action.ask Compiler.resolve s = (.ok compiler, s) := Prod.ext hcompiler rfl
    cases hfound : s.machine.pathExists compiler.text with
    | error e =>
      have hexists : Action.ask (fun s : Setup => s.machine.pathExists compiler.text) s =
          (.error e, s) := Prod.ext hfound rfl
      refine .inl ?_
      rw [Compiler.compile, Action.bind_eq_of_ok hask, Action.bind_eq_of_error hexists]
    | ok found =>
      have hexists : Action.ask (fun s : Setup => s.machine.pathExists compiler.text) s =
          (.ok found, s) := Prod.ext hfound rfl
      cases found with
      | false =>
        refine .inl ?_
        rw [Compiler.compile, Action.bind_eq_of_ok hask, Action.bind_eq_of_ok hexists]
        rfl
      | true =>
        cases hwords : Compiler.command s source with
        | error e =>
          have hcommand : Action.ask (fun s => Compiler.command s source) s = (.error e, s) :=
            Prod.ext hwords rfl
          refine .inl ?_
          rw [Compiler.compile, Action.bind_eq_of_ok hask, Action.bind_eq_of_ok hexists, if_pos rfl,
            Action.bind_eq_of_error hcommand]
        | ok words =>
          rw [Compiler.setup_compile hcompiler hfound hwords]
          rcases Machine.launch_started_or_same s.machine
            (Compiler.compilerLaunch s.settings source words) with hstarted | hsame
          · rw [hstarted]
            exact .inr ⟨words, rfl, rfl⟩
          · rw [hsame]
            exact .inl rfl

theorem isLaunch_of_command {s : Setup} {source : String} {words : List Text.CodePoints}
    (h : Compiler.command s source = .ok words) {l : Launch} (hl : l.command = words) :
    IsLaunch s.settings source l := by
  obtain ⟨compiler, arguments, -, harguments, rfl⟩ := Compiler.command_eq_ok.1 h
  exact .inr ⟨compiler, arguments, harguments, hl⟩

theorem loyal_compiler (path : String) : Loyal path (onSetup (Compiler.compile path)) := by
  rintro e rfl
  have hstate : (onSetup (Compiler.compile e.session.path) e).2 =
      { e with setup := (Compiler.compile e.session.path e.setup).2 } := rfl
  rw [hstate]
  rcases setup_compile e.session.path e.setup with hsame | ⟨words, hwords, hlaunched⟩
  · rw [hsame]
    exact .refl e
  · rw [hlaunched]
    refine ⟨rfl, rfl, [Compiler.compilerLaunch e.setup.settings e.session.path words], rfl, ?_⟩
    exact List.forall_mem_singleton.2 (isLaunch_of_command hwords rfl)

theorem loyal_program (path : String) (program : Path) (directory : String) :
    Loyal path (onSetup (Compiler.execute program directory)) := by
  intro e _
  have hstate : (onSetup (Compiler.execute program directory) e).2 =
      { e with setup := (Compiler.execute program directory e.setup).2 } := rfl
  rw [hstate, Compiler.setup_execute]
  rcases Machine.launch_started_or_same e.setup.machine
    (Compiler.launchFrom e.setup.settings program directory) with hstarted | hsame
  · rw [hstarted]
    exact ⟨rfl, rfl, [_], rfl, List.forall_mem_singleton.2 (.inl ⟨program, rfl⟩)⟩
  · rw [hsame]
    exact .refl e

/-! ## Compilations -/

section
variable {path : String}

theorem loyal_refuse : Loyal path refuse := (loyal_say _).bind fun _ => loyal_finish _

theorem loyal_reload : Loyal path reload := by
  refine Loyal.of_get fun e _ => ?_
  split
  · exact loyal_change fun _ => rfl
  · exact loyal_note _
  · exact loyal_throw _

theorem loyal_reportMissing (compiler : Path) : Loyal path (reportMissing compiler) :=
  (loyal_say _).bind fun _ => (loyal_setStatus _).bind fun _ => (loyal_note _).bind fun _ =>
    loyal_publish

theorem loyal_reportSuccess {c : Compilation} (hc : c.succeeded = true) :
    Loyal path (reportSuccess c) := by
  rw [reportSuccess_eq hc]
  exact (loyal_sayAll _).bind fun _ => (loyal_note _).bind fun _ => loyal_finish _

theorem loyal_reportFailure (source : String) (c : Compilation) :
    Loyal path (reportFailure source c) := by
  refine (loyal_sayAll _).bind fun _ e he => ?_
  rw [Action.bind_eq_of_ok (Action.get_apply e)]
  -- filing diagnostics does not change the source
  have hset : Retains e { e with session := (e.session.publish source c.diagnosticText).1 } :=
    .of_still rfl rfl rfl
  refine Action.bind_ensures Retains.trans hset fun _ t ht => ?_
  obtain ⟨-, rfl⟩ := Prod.mk.inj ht
  exact ((loyal_note _).bind fun _ => loyal_finish _) _ he

theorem loyal_build : Loyal path (build path) := by
  refine Loyal.bind (loyal_change fun _ => rfl) fun _ => (loyal_askSetup _).bind fun words => ?_
  refine (loyal_say _).bind fun _ => (loyal_note _).bind fun _ => ?_
  refine (loyal_compiler path).bind fun c => Loyal.bind (loyal_change fun _ => rfl) fun _ => ?_
  split
  · next hc => exact (loyal_reportSuccess hc).answer _
  · exact (loyal_reportFailure path c).answer _

theorem loyal_compile : Loyal path Engine.compile := by
  refine Loyal.of_get fun e he => ?_
  dsimp only
  rw [he]
  split
  · refine loyal_reload.bind fun _ => (loyal_askSetup _).bind fun compiler => ?_
    refine (loyal_askSetup _).bind fun found => ?_
    split
    · exact loyal_build
    · exact (loyal_reportMissing compiler).answer false
  · exact loyal_refuse.answer false

theorem loyal_check : Loyal path check := by
  refine Loyal.of_get fun e _ => ?_
  split
  · exact (loyal_say _).bind fun _ => loyal_compile
  · exact loyal_refuse.answer false

/-! ## Runs -/

theorem loyal_execute (source : String) (program : Path) : Loyal path (execute source program) := by
  refine (loyal_sayAll _).bind fun _ => (loyal_program path program _).bind fun x => ?_
  refine Loyal.bind (loyal_change fun _ => rfl) fun _ => Loyal.answer ?_ x
  exact (loyal_sayAll _).bind fun _ => (loyal_setStatus _).bind fun _ => (loyal_sayAll _).bind
    fun _ => (loyal_note _).bind fun _ => loyal_publish

theorem loyal_runCompiled (source : String) : Loyal path (runCompiled source) := by
  refine Loyal.of_get fun e _ => ?_
  dsimp only
  split
  · exact ((loyal_say _).bind fun _ => (loyal_note _).bind fun _ => loyal_finish _).answer none
  · exact ((loyal_say _).bind fun _ => (loyal_say _).bind fun _ => (loyal_note _).bind fun _ =>
      loyal_finish _).answer none
  · exact loyal_throw _
  · next l hl =>
    refine Loyal.bind (loyal_change fun _ => rfl) fun _ => ?_
    split
    · exact ((loyal_say _).bind fun _ => (loyal_sayAll _).bind fun _ => (loyal_say _).bind fun _ =>
        (loyal_note _).bind fun _ => loyal_finish _).answer none
    · next program hpath =>
      exact (loyal_execute source program).bind fun x => loyal_pure (some x)

theorem loyal_run : Loyal path run := by
  refine loyal_compile.bind fun r => ?_
  split
  · exact Loyal.of_get fun e _ => loyal_runCompiled _
  · exact loyal_pure none

/-! ## Probes -/

theorem loyal_list (directory : String) : Loyal path (list directory) := by
  refine Loyal.of_get fun e _ => ?_
  split
  · exact loyal_pure _
  · exact (loyal_say _).bind fun _ => (loyal_note _).bind fun _ => (loyal_finish _).answer none
  · exact loyal_throw _

theorem loyal_compare (directory : String) (before : Listing) :
    Loyal path (compare path directory before) := by
  refine (loyal_sayAll _).bind fun _ => (loyal_sayAll _).bind fun _ => ?_
  refine (loyal_askSetup _).bind fun words => (loyal_say _).bind fun _ => ?_
  refine (loyal_compiler path).bind fun c => Loyal.bind (loyal_change fun _ => rfl) fun _ => ?_
  refine (loyal_sayAll _).bind fun _ => (loyal_list directory).bind fun after => ?_
  split
  · exact loyal_pure false
  · exact (loyal_sayAll _).bind fun _ => (loyal_sayAll _).bind fun _ => (loyal_say _).bind fun _ =>
      (loyal_sayAll _).bind fun _ => (loyal_sayAll _).bind fun _ => (loyal_note _).bind fun _ =>
        (loyal_finish _).answer c.succeeded

theorem loyal_probe : Loyal path probe := by
  refine Loyal.of_get fun e he => ?_
  dsimp only
  rw [he]
  split
  · refine (loyal_askSetup _).bind fun compiler => Loyal.bind (loyal_change fun _ => rfl) fun _ => ?_
    refine (loyal_sayAll _).bind fun _ => (loyal_askSetup _).bind fun found => ?_
    split
    · refine (loyal_sayAll _).bind fun _ => (loyal_list _).bind fun before => ?_
      split
      · exact loyal_pure false
      · exact loyal_compare _ _
    · exact ((loyal_say _).bind fun _ => loyal_finish _).answer false
  · exact loyal_refuse.answer false

/-! ## The life of an engine -/

theorem loyal_start : Loyal path start := by
  refine loyal_reload.bind fun _ => loyal_publish.bind fun _ => Loyal.of_get fun e _ => ?_
  split
  · exact loyal_onWatcher _
  · exact loyal_pure _

theorem loyal_stop : Loyal path stop := fun _ _ => .of_still rfl rfl rfl

theorem loyal_close : Loyal path close :=
  Loyal.bind (loyal_change fun _ => rfl) fun _ => loyal_publish

theorem loyal_saved (file : String) : Loyal path (saved file) :=
  (loyal_note _).bind fun _ => loyal_compile.answer _

theorem loyal_receive (event : FileEvent) : Loyal path (receive event) := by
  refine Loyal.of_get fun e _ => Loyal.forM fun i => Loyal.of_get fun e _ => ?_
  refine (loyal_onWatcher _).bind fun file => ?_
  split
  · exact loyal_saved _
  · exact loyal_pure _

end

end Engine

end Workbench
