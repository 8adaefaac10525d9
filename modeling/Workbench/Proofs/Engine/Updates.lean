import Workbench.Engine.Life
import Workbench.Proofs.Engine.Answers
import Workbench.Proofs.Engine.Launches
import Workbench.Proofs.Engine.Probe

/-!
# What a command shows

A command shows the session once, after its last change, so that nobody who follows the engine keeps
an old one. A run shows it once more in between, when its compilation is over.

* `Overlooks R` : the relation does not notice what is said, in the log and in the log file;
* `Unshown e e'`, `Mute a` : work that shows nothing and leaves the status alone;
* `ShownOnce e e'`, `Concludes a` : work that shows the session once, as it is at the end, with a
  status that is not the one of a compilation under way;
* `Rests a` : the same, for work that leaves the status alone;
* `updates_of_commands` : each command, and what a run shows in between.
-/

namespace Workbench.Engine

open Workbench.Action (Ensures)

/-! ## Relations that hold whatever is said -/

/-- A relation that does not notice what is said and what is written to the log file. -/
structure Overlooks (R : Engine → Engine → Prop) : Prop where
  refl : ∀ e : Engine, R e e
  trans : ∀ {e₁ e₂ e₃ : Engine}, R e₁ e₂ → R e₂ e₃ → R e₁ e₃
  said : ∀ (e : Engine) (texts : List String), R e { e with session := texts.foldl Session.say e.session }
  noted : ∀ (e : Engine) (s : Setup), Noted e.setup s → R e { e with setup := s }

namespace Overlooks
variable {α : Type} {R : Engine → Engine → Prop}

theorem ensures_pure (h : Overlooks R) (x : α) : Ensures R (pure x) := h.refl

theorem ensures_get (h : Overlooks R) : Ensures R (get : Action Engine Engine) := h.refl

theorem ensures_askSetup (h : Overlooks R) (f : Setup → Except Failure α) :
    Ensures R (askSetup f) := h.refl

theorem ensures_note (h : Overlooks R) (text : String) : Ensures R (note text) :=
  fun e => h.noted e (noteOn text e.setup).2 (noted_noteOn text e.setup)

theorem ensures_sayAll (h : Overlooks R) (texts : List String) : Ensures R (sayAll texts) :=
  fun e => h.said e texts

theorem ensures_say (h : Overlooks R) (text : String) : Ensures R (say text) :=
  h.ensures_sayAll [text]

end Overlooks

/-! ## Work that shows nothing -/

/-- Nothing was shown, and the status is as it was. -/
structure Unshown (e e' : Engine) : Prop where
  updates : e'.updates = e.updates
  status : e'.session.status = e.session.status

theorem overlooks_unshown : Overlooks Unshown where
  refl _ := ⟨rfl, rfl⟩
  trans h h' := ⟨h'.updates.trans h.updates, h'.status.trans h.status⟩
  said e texts := by
    rw [Session.foldl_say]
    exact ⟨rfl, rfl⟩
  noted _ _ _ := ⟨rfl, rfl⟩

/-- Work that shows nothing and leaves the status alone, even where it fails. -/
def Mute {α : Type} (a : Action Engine α) : Prop := Ensures Unshown a

section
variable {α β : Type}

theorem mute_say (text : String) : Mute (say text) := overlooks_unshown.ensures_say text

theorem mute_sayAll (texts : List String) : Mute (sayAll texts) :=
  overlooks_unshown.ensures_sayAll texts

theorem mute_note (text : String) : Mute (note text) := overlooks_unshown.ensures_note text

theorem mute_onSetup (a : Action Setup α) : Mute (onSetup a) := fun _ => ⟨rfl, rfl⟩

theorem mute_get : Mute (get : Action Engine Engine) := overlooks_unshown.ensures_get

theorem mute_change {f : Session → Session} (hf : ∀ s, (f s).status = s.status) :
    Mute (change f) := fun e => ⟨rfl, hf e.session⟩

/-! ## Work that ends with an update -/

/-- The session was shown once, as it is now, and no compilation is under way. -/
structure ShownOnce (e e' : Engine) : Prop where
  shown : e'.updates = e.updates ++ [e'.session]
  ended : e'.session.status ≠ "compiling"

/-- Where it has a result, the work has shown the session once, at its end. -/
def Concludes (a : Action Engine α) : Prop :=
  ∀ (e e' : Engine) (x : α), a e = (.ok x, e') → ShownOnce e e'

/-- Where it has a result, the work has shown the session once, at its end, and it leaves the status
alone. -/
def Rests (a : Action Engine α) : Prop :=
  ∀ (e e' : Engine) (x : α), a e = (.ok x, e') →
    e'.updates = e.updates ++ [e'.session] ∧ e'.session.status = e.session.status

theorem Unshown.shownOnce {e₁ e₂ e₃ : Engine} (h : Unshown e₁ e₂) (h' : ShownOnce e₂ e₃) :
    ShownOnce e₁ e₃ where
  shown := by rw [h'.shown, h.updates]
  ended := h'.ended

theorem Mute.unshown {a : Action Engine α} (ha : Mute a) {e e' : Engine} {r : Except Failure α}
    (h : a e = (r, e')) : Unshown e e' := by
  have hunshown := ha e
  rw [h] at hunshown
  exact hunshown

theorem Mute.concludes {a : Action Engine α} {f : α → Action Engine β} (ha : Mute a)
    (hf : ∀ x, Concludes (f x)) : Concludes (a >>= f) := by
  intro e e' y h
  obtain ⟨x, t, hx, h⟩ := Action.bind_eq_ok.1 h
  exact (ha.unshown hx).shownOnce (hf x _ _ _ h)

theorem Mute.rests {a : Action Engine α} {f : α → Action Engine β} (ha : Mute a)
    (hf : ∀ x, Rests (f x)) : Rests (a >>= f) := by
  intro e e' y h
  obtain ⟨x, t, hx, h⟩ := Action.bind_eq_ok.1 h
  obtain ⟨hupdates, hstatus⟩ := hf x _ _ _ h
  have hunshown := ha.unshown hx
  rw [hupdates, hunshown.updates, hstatus, hunshown.status]
  exact ⟨rfl, rfl⟩

theorem rests_publish : Rests publish := by
  intro e e' u h
  rw [publish_apply] at h
  obtain ⟨-, rfl⟩ := Prod.mk.inj h
  exact ⟨rfl, rfl⟩

/-- A status that was set is shown by work that leaves it alone. -/
theorem Rests.concludes {f : Unit → Action Engine β} {status : String} (hne : status ≠ "compiling")
    (hf : ∀ u, Rests (f u)) : Concludes (setStatus status >>= f) := by
  intro e e' y h
  rw [setStatus, Action.bind_eq_of_ok (change_apply _ e)] at h
  obtain ⟨hupdates, hstatus⟩ := hf () _ _ _ h
  exact ⟨hupdates, fun hcompiling => hne (hstatus.symm.trans hcompiling)⟩

theorem concludes_finish {status : String} (hne : status ≠ "compiling") :
    Concludes (finish status) := Rests.concludes hne fun _ => rests_publish

theorem Concludes.answer {a : Action Engine α} (ha : Concludes a) (y : β) :
    Concludes (a >>= fun _ => (pure y : Action Engine β)) := by
  intro e e' z h
  obtain ⟨x, t, hx, hpure⟩ := Action.bind_eq_ok.1 h
  obtain ⟨-, rfl⟩ := Prod.mk.inj hpure
  exact ha _ _ _ hx

theorem concludes_throw (failure : Failure) : Concludes (throw failure : Action Engine α) := by
  intro e e' x h
  exact absurd (congrArg Prod.fst h) (by simp)

end

theorem concludes_refuse : Concludes refuse :=
  (mute_say _).concludes fun _ => concludes_finish (by decide)

theorem concludes_compile : Concludes Engine.compile := by
  intro e e' r h
  obtain ⟨hended, hshown⟩ := (compile_eq_ok.1 h).shown
  exact ⟨hshown, hended⟩

theorem concludes_check : Concludes check := by
  refine mute_get.concludes fun e => ?_
  split
  · exact (mute_say _).concludes fun _ => concludes_compile
  · exact concludes_refuse.answer false

/-! ## Runs -/

theorem concludes_reportCannotCheck (failure : Failure) : Concludes (reportCannotCheck failure) :=
  (mute_say _).concludes fun _ => (mute_note _).concludes fun _ => concludes_finish (by decide)

theorem concludes_reportBadTemplate (failure : Failure) : Concludes (reportBadTemplate failure) :=
  (mute_say _).concludes fun _ => (mute_say _).concludes fun _ => (mute_note _).concludes fun _ =>
    concludes_finish (by decide)

theorem concludes_reportNotFound (l : Artifact.Lookup) : Concludes (reportNotFound l) :=
  (mute_say _).concludes fun _ => (mute_sayAll _).concludes fun _ => (mute_say _).concludes fun _ =>
    (mute_note _).concludes fun _ => concludes_finish (by decide)

theorem concludes_reportExecution (program : Path) (x : Execution) :
    Concludes (reportExecution program x) := by
  refine (mute_sayAll _).concludes fun _ => ?_
  have hne : (if x.failed = true then "runtime error" else "ran") ≠ "compiling" := by
    split <;> decide
  exact Rests.concludes hne fun _ => (mute_sayAll _).rests fun _ => (mute_note _).rests fun _ =>
    rests_publish

theorem concludes_execute (source : String) (program : Path) : Concludes (execute source program) :=
  (mute_sayAll _).concludes fun _ => (mute_onSetup _).concludes fun x =>
    Mute.concludes (mute_change fun _ => rfl) fun _ => (concludes_reportExecution program x).answer x

theorem concludes_runCompiled (source : String) : Concludes (runCompiled source) := by
  refine mute_get.concludes fun e => ?_
  dsimp only
  split
  · exact (concludes_reportCannotCheck _).answer none
  · exact (concludes_reportBadTemplate _).answer none
  · exact concludes_throw _
  · next l hl =>
    refine Mute.concludes (mute_change fun _ => rfl) fun _ => ?_
    split
    · exact (concludes_reportNotFound l).answer none
    · next program hpath =>
      intro e e' x h
      obtain ⟨y, t, hexecute, hpure⟩ := Action.bind_eq_ok.1 h
      obtain ⟨-, rfl⟩ := Prod.mk.inj hpure
      exact concludes_execute source program _ _ _ hexecute

/-- What a run shows: the session when its compilation is over, and the one at its end if the
compilation succeeded. -/
structure ShownByRun (e compiled : Engine) (r : Bool) (e' : Engine) : Prop where
  between : ShownOnce e compiled
  after : r = true → ShownOnce compiled e'
  same : r = false → e' = compiled

theorem shownByRun_of_run {e e' : Engine} {x : Option Execution} (h : run e = (.ok x, e')) :
    ∃ r compiled, Engine.compile e = (.ok r, compiled) ∧ ShownByRun e compiled r e' := by
  obtain ⟨r, compiled, hcompile, h⟩ := Action.bind_eq_ok.1 h
  refine ⟨r, compiled, hcompile, concludes_compile _ _ _ hcompile, ?_, ?_⟩
  · rintro rfl
    rw [if_pos rfl, Action.bind_eq_of_ok (Action.get_apply compiled)] at h
    exact concludes_runCompiled compiled.session.path _ _ _ h
  · rintro rfl
    exact (Prod.mk.inj h).2.symm

theorem ShownByRun.updates {e compiled e' : Engine} {r : Bool} (h : ShownByRun e compiled r e') :
    e'.updates = e.updates ++ (if r then [compiled.session, e'.session] else [e'.session]) ∧
      e'.session.status ≠ "compiling" := by
  cases r with
  | false =>
    obtain rfl := h.same rfl
    exact ⟨h.between.shown, h.between.ended⟩
  | true =>
    have hafter := h.after rfl
    refine ⟨?_, hafter.ended⟩
    rw [hafter.shown, h.between.shown]
    simp

/-! ## Probes -/

theorem shownOnce_of_ended {e e₁ : Engine} {status : String} (hstatus : status ≠ "compiling")
    (h : e₁.updates = e.updates) (s : Setup) : ShownOnce e (e₁.ended s status) where
  shown := congrArg (· ++ [(e₁.ended s status).session]) h
  ended := hstatus

/-- Whatever a probe comes to, it ends with a status and shows the session then. -/
theorem concludes_probe : Concludes probe := by
  intro e e' r h
  cases probe_eq_ok.1 h with
  | refused => exact ⟨rfl, (by decide : "not a CPLE file" ≠ "compiling")⟩
  | missing =>
    refine shownOnce_of_ended (by decide : "compiler missing" ≠ "compiling") ?_ _
    rfl
  | unlisted =>
    refine shownOnce_of_ended (by decide : "debug failed" ≠ "compiling") ?_ _
    rfl
  | compared hopens hlist hcompare =>
    cases hcompare with
    | unlisted =>
      refine shownOnce_of_ended (by decide : "debug failed" ≠ "compiling") ?_ _
      rfl
    | listed =>
      refine shownOnce_of_ended (by decide : "debug complete" ≠ "compiling") ?_ _
      rfl

/-! ## All commands -/

theorem shown_of_close (e : Engine) :
    ∃ e', close e = (.ok (), e') ∧ e'.updates = e.updates ++ [e'.session] :=
  ⟨_, rfl, rfl⟩

/-- A command that comes to an end has shown the session once, as it is at the end, and no
compilation is under way. A run has shown the session of its compilation as well, if and only if
that succeeded. -/
theorem updates_of_commands (e : Engine) :
    (∀ r e', Engine.compile e = (.ok r, e') → ShownOnce e e') ∧
    (∀ r e', check e = (.ok r, e') → ShownOnce e e') ∧
    (∀ r e', probe e = (.ok r, e') → ShownOnce e e') ∧
    (∀ x e', run e = (.ok x, e') → ∃ r compiled, Engine.compile e = (.ok r, compiled) ∧
      e'.updates = e.updates ++ (if r then [compiled.session, e'.session] else [e'.session]) ∧
      e'.session.status ≠ "compiling") ∧
    ∃ e', close e = (.ok (), e') ∧ e'.updates = e.updates ++ [e'.session] := by
  refine ⟨fun r e' h => concludes_compile e e' r h, fun r e' h => concludes_check e e' r h,
    fun r e' h => concludes_probe e e' r h, fun x e' h => ?_, shown_of_close e⟩
  obtain ⟨r, compiled, hcompile, hrun⟩ := shownByRun_of_run h
  exact ⟨r, compiled, hcompile, hrun.updates⟩

/-- A compiler that makes a program is shown once by a compilation, a check and a probe, and twice by
a run. -/
theorem updates_of_buildingEngine :
    (∃ e', Engine.compile buildingEngine = (.ok true, e') ∧ e'.updates = [e'.session]) ∧
    (∃ e', check buildingEngine = (.ok true, e') ∧ e'.updates = [e'.session]) ∧
    (∃ e', probe buildingEngine = (.ok true, e') ∧ e'.updates = [e'.session]) ∧
    (∃ (x : Execution) (e' compiled : Engine), run buildingEngine = (.ok (some x), e') ∧
      e'.updates = [compiled.session, e'.session] ∧ e'.session.status ≠ "compiling") ∧
    ∃ e', run idleEngine = (.ok none, e') ∧ e'.updates = [e'.session] := by
  have hcompile : Engine.compile buildingEngine = (.ok true, (Engine.compile buildingEngine).2) :=
    Action.eq_of_toOption (by decide +kernel)
  have hcheck : check buildingEngine = (.ok true, (check buildingEngine).2) :=
    Action.eq_of_toOption (by decide +kernel)
  have hprobe : probe buildingEngine = (.ok true, (probe buildingEngine).2) :=
    Action.eq_of_toOption (by decide +kernel)
  obtain ⟨onCompile, onCheck, onProbe, onRun, -⟩ := updates_of_commands buildingEngine
  refine ⟨⟨_, hcompile, (onCompile _ _ hcompile).shown⟩, ⟨_, hcheck, (onCheck _ _ hcheck).shown⟩,
    ⟨_, hprobe, (onProbe _ _ hprobe).shown⟩, ?_, ?_⟩
  · have hsome : (run buildingEngine).1.toOption.join.isSome = true := by decide +kernel
    obtain ⟨x, hx⟩ := Option.isSome_iff_exists.1 hsome
    have hrun : run buildingEngine = (.ok (some x), (run buildingEngine).2) :=
      Action.eq_of_toOption (Option.join_eq_some_iff.1 hx)
    obtain ⟨r, compiled, hcompiled, hupdates, hstatus⟩ := onRun _ _ hrun
    obtain ⟨hr, -⟩ := Prod.mk.inj (hcompiled.symm.trans hcompile)
    obtain rfl := Except.ok.inj hr
    exact ⟨x, _, _, hrun, hupdates, hstatus⟩
  · have hfails : (Engine.compile idleEngine).1.toOption = some false := by decide +kernel
    have hcompile : Engine.compile idleEngine = (.ok false, (Engine.compile idleEngine).2) :=
      Action.eq_of_toOption hfails
    have hrun : run idleEngine = (.ok none, (Engine.compile idleEngine).2) :=
      Action.bind_eq_of_ok hcompile
    obtain ⟨-, -, -, onIdle, -⟩ := updates_of_commands idleEngine
    obtain ⟨r, compiled, hr, hupdates, -⟩ := onIdle _ _ hrun
    obtain rfl := Except.ok.inj (Prod.mk.inj (hr.symm.trans hcompile)).1
    exact ⟨_, hrun, hupdates⟩

end Workbench.Engine
