import Workbench.Proofs.Engine.Announcement
import Workbench.Proofs.OutputLog

/-!
# What commands do to the log

A compilation, a check and a run put texts at the end of the log, whatever becomes of them, and so do
opening and closing a source. A probe begins the log anew.

* `Extends e e'`, `Grows a` : the log has more lines at its end; work that does no more to it, even
  where it fails;
* `grows_compile`, `grows_check`, `grows_run`, `grows_start`, `grows_close` : the commands;
* `LeadsTo e e'`, `LeadsTo.extends` : any number of them, with other changes of the setup in between;
* `withLog e log`, `probe_withLog` : a probe that comes to an end comes to the same from any log;
* `log_of_commands` : the laws of a log, and of what the commands do to it.
-/

namespace Workbench.Engine

open Workbench.Action (Ensures)

/-! ## Work that appends -/

/-- The old lines of the log come first in the new log. -/
def Extends (e e' : Engine) : Prop := e.session.output <+: e'.session.output

theorem extends_of_eq {e e' : Engine} (h : e'.session.output = e.session.output) : Extends e e' := by
  simp only [Extends, h, List.prefix_rfl]

theorem Extends.trans {e₁ e₂ e₃ : Engine} (h : Extends e₁ e₂) (h' : Extends e₂ e₃) :
    Extends e₁ e₃ := List.IsPrefix.trans h h'

theorem overlooks_extends : Overlooks Extends where
  refl _ := List.prefix_rfl
  trans := Extends.trans
  said e texts := (overlooks_continues.said e texts).output
  noted e s h := (overlooks_continues.noted e s h).output

/-- Work that does no more to the log than to put lines at its end, even where it fails. -/
def Grows {α : Type} (a : Action Engine α) : Prop := Ensures Extends a

section
variable {α β : Type}

theorem Grows.bind {a : Action Engine α} {f : α → Action Engine β} (ha : Grows a)
    (hf : ∀ x, Grows (f x)) : Grows (a >>= f) := Ensures.bind Extends.trans ha hf

theorem Grows.answer {a : Action Engine α} (ha : Grows a) (y : β) :
    Grows (a >>= fun _ => (pure y : Action Engine β)) :=
  ha.bind fun _ => overlooks_extends.ensures_pure y

theorem grows_throw (failure : Failure) : Grows (throw failure : Action Engine α) :=
  fun _ => List.prefix_rfl

theorem grows_get : Grows (get : Action Engine Engine) := overlooks_extends.ensures_get

theorem grows_askSetup (f : Setup → Except Failure α) : Grows (askSetup f) :=
  overlooks_extends.ensures_askSetup f

theorem grows_onSetup (a : Action Setup α) : Grows (onSetup a) := fun _ => List.prefix_rfl

theorem grows_onWatcher (a : Action Watcher α) : Grows (onWatcher a) := fun _ => List.prefix_rfl

theorem grows_change {f : Session → Session} (hf : ∀ s, (f s).output = s.output) :
    Grows (change f) := fun e => extends_of_eq (hf e.session)

theorem grows_setStatus (status : String) : Grows (setStatus status) :=
  grows_change fun _ => rfl

theorem grows_say (text : String) : Grows (say text) := overlooks_extends.ensures_say text

theorem grows_sayAll (texts : List String) : Grows (sayAll texts) :=
  overlooks_extends.ensures_sayAll texts

theorem grows_note (text : String) : Grows (note text) := overlooks_extends.ensures_note text

theorem grows_publish : Grows publish := fun _ => List.prefix_rfl

theorem grows_finish (status : String) : Grows (finish status) :=
  fun e => (continues_finish status e).output

theorem grows_note_finish (text status : String) :
    Grows (note text >>= fun _ => finish status) :=
  fun e => (continues_note_finish text status e).output

end

theorem grows_refuse : Grows refuse := (grows_say _).bind fun _ => grows_finish _

theorem grows_reload : Grows reload := by
  refine grows_get.bind fun e => ?_
  split
  · exact grows_change fun _ => rfl
  · exact grows_note _
  · exact grows_throw _

/-! ## Compilations -/

theorem grows_reportMissing (compiler : Path) : Grows (reportMissing compiler) :=
  (grows_say _).bind fun _ => (grows_setStatus _).bind fun _ => (grows_note _).bind fun _ =>
    grows_publish

theorem grows_build (source : String) : Grows (build source) := by
  refine Grows.bind (grows_change fun _ => rfl) fun _ => (grows_askSetup _).bind fun words => ?_
  refine (grows_say _).bind fun _ => (grows_note _).bind fun _ => (grows_onSetup _).bind fun c => ?_
  exact fun e => (continues_report source c e).output

theorem grows_compile : Grows Engine.compile := by
  refine grows_get.bind fun e => ?_
  dsimp only
  split
  · refine grows_reload.bind fun _ => (grows_askSetup _).bind fun compiler => ?_
    refine (grows_askSetup _).bind fun found => ?_
    split
    · exact grows_build _
    · exact (grows_reportMissing compiler).answer false
  · exact grows_refuse.answer false

theorem grows_check : Grows check := by
  refine grows_get.bind fun e => ?_
  split
  · exact (grows_say _).bind fun _ => grows_compile
  · exact grows_refuse.answer false

/-! ## Runs -/

theorem grows_reportExecution (program : Path) (x : Execution) :
    Grows (reportExecution program x) :=
  (grows_sayAll _).bind fun _ => (grows_setStatus _).bind fun _ => (grows_sayAll _).bind fun _ =>
    (grows_note _).bind fun _ => grows_publish

theorem grows_execute (source : String) (program : Path) : Grows (execute source program) :=
  (grows_sayAll _).bind fun _ => (grows_onSetup _).bind fun x =>
    Grows.bind (grows_change fun _ => rfl) fun _ => (grows_reportExecution program x).answer x

theorem grows_reportCannotCheck (failure : Failure) : Grows (reportCannotCheck failure) :=
  (grows_say _).bind fun _ => grows_note_finish _ _

theorem grows_reportBadTemplate (failure : Failure) : Grows (reportBadTemplate failure) :=
  (grows_say _).bind fun _ => (grows_say _).bind fun _ => grows_note_finish _ _

theorem grows_reportNotFound (l : Artifact.Lookup) : Grows (reportNotFound l) :=
  (grows_say _).bind fun _ => (grows_sayAll _).bind fun _ => (grows_say _).bind fun _ =>
    grows_note_finish _ _

theorem grows_runCompiled (source : String) : Grows (runCompiled source) := by
  refine grows_get.bind fun e => ?_
  dsimp only
  split
  · exact (grows_reportCannotCheck _).answer none
  · exact (grows_reportBadTemplate _).answer none
  · exact grows_throw _
  · next l hl =>
    refine Grows.bind (grows_change fun _ => rfl) fun _ => ?_
    split
    · exact (grows_reportNotFound l).answer none
    · next program hpath =>
      exact (grows_execute source program).bind fun x => overlooks_extends.ensures_pure (some x)

theorem grows_run : Grows run := by
  refine grows_compile.bind fun r => ?_
  split
  · exact grows_get.bind fun e => grows_runCompiled _
  · exact overlooks_extends.ensures_pure none

/-! ## The source opened and closed -/

theorem grows_start : Grows start := by
  refine grows_reload.bind fun _ => grows_publish.bind fun _ => grows_get.bind fun e => ?_
  split
  · exact grows_onWatcher _
  · exact overlooks_extends.ensures_pure _

theorem grows_close : Grows close :=
  Grows.bind (grows_change fun _ => rfl) fun _ => grows_publish

/-! ## Commands in a row -/

/-- What is done to an engine without a probe: the commands, and the source opened and closed. -/
inductive Deed
  | command (c : Command)
  | start
  | close
  deriving DecidableEq, Repr

def Deed.act : Deed → Action Engine Unit
  | .command c => c.act
  | .start => Engine.start
  | .close => Engine.close

theorem grows_act (c : Command) : Grows c.act := by
  cases c with
  | compile => exact grows_compile.answer ()
  | check => exact grows_check.answer ()
  | run => exact grows_run.answer ()

theorem grows_deed (d : Deed) : Grows d.act := by
  cases d with
  | command c => exact grows_act c
  | start => exact grows_start
  | close => exact grows_close

/-- An engine leads to another one by deeds that may fail, while others change the setup in between. -/
inductive LeadsTo (e : Engine) : Engine → Prop
  | here : LeadsTo e e
  | elsewhere {e' : Engine} (s : Setup) (h : LeadsTo e e') : LeadsTo e { e' with setup := s }
  | deed {e' : Engine} (d : Deed) (h : LeadsTo e e') : LeadsTo e (d.act e').2

/-- Whatever an engine leads to, its log goes on. -/
theorem LeadsTo.extends {e e' : Engine} (h : LeadsTo e e') : Extends e e' := by
  induction h with
  | here => exact List.prefix_rfl
  | elsewhere s h ih => exact ih
  | deed d h ih => exact ih.trans (grows_deed d _)

/-! ## Probes -/

/-- The engine with another log. -/
def withLog (e : Engine) (log : OutputLog) : Engine :=
  { e with session := { e.session with output := log } }

/-- A probe of a source that comes to an end leaves the same engine, whatever the log was before. One
case for each end: in all of them the log begins with the heading. -/
theorem probe_withLog {e e' : Engine} {r : Bool} (hsource : isSource e.session.path = true)
    (h : probe e = (.ok r, e')) (log : OutputLog) : probe (e.withLog log) = (.ok r, e') := by
  rw [probe_eq_ok] at h ⊢
  cases h with
  | refused hnot => exact absurd hsource (by simp [hnot])
  | missing hopens => exact Probes.missing (e := e.withLog log) hopens
  | unlisted hopens hlist hnote => exact Probes.unlisted (e := e.withLog log) hopens hlist hnote
  | compared hopens hlist hcompare =>
    exact Probes.compared (e := e.withLog log) hopens hlist hcompare

/-! ## All commands -/

/-- A log that was written to and emptied in any order has no line with a line feed, and reads as the
texts since it was last emptied, one below the other. A compilation, a check, a run, and opening and
closing a source leave the old lines where they are, also where they fail, and so does any number of
them. What a probe of a source leaves, if it comes to an end, does not depend on the log before. -/
theorem log_of_commands :
    (∀ steps : List OutputLog.Step,
      (∀ line ∈ OutputLog.run [] steps, '\n' ∉ line.toList) ∧
      (∃ texts, OutputLog.Since steps texts) ∧
      ∀ texts, OutputLog.Since steps texts → OutputLog.Reads (OutputLog.run [] steps) texts) ∧
    (∀ e : Engine,
      e.session.output <+: (Engine.compile e).2.session.output ∧
      e.session.output <+: (check e).2.session.output ∧
      e.session.output <+: (run e).2.session.output ∧
      e.session.output <+: (start e).2.session.output ∧
      e.session.output <+: (close e).2.session.output) ∧
    (∀ e e' : Engine, LeadsTo e e' → e.session.output <+: e'.session.output) ∧
    ∀ (e e' : Engine) (r : Bool), isSource e.session.path = true → probe e = (.ok r, e') →
      ∀ log, probe (e.withLog log) = (.ok r, e') := by
  refine ⟨fun steps => ?_, fun e => ?_, fun e e' h => h.extends,
    fun e e' r hsource h log => probe_withLog hsource h log⟩
  · exact ⟨fun line => OutputLog.not_mem_of_mem_run, OutputLog.exists_since steps,
      fun texts => OutputLog.reads_run⟩
  · exact ⟨grows_compile e, grows_check e, grows_run e, grows_start e, grows_close e⟩

/-- A log that was emptied once reads as the two texts after that, and a probe forgets it. -/
theorem log_of_buildingEngine :
    let steps : List OutputLog.Step := [.append "a\n", .clear, .append "b\nc", .append ""]
    (OutputLog.run [] steps).text = "b\nc\n" ∧ OutputLog.run [] steps = ["b", "c", ""] ∧
    (run buildingEngine).2.session.output <+:
      (close (run buildingEngine).2).2.session.output ∧
    ∃ e', probe buildingEngine = (.ok true, e') ∧
      probe (buildingEngine.withLog (OutputLog.run [] steps)) = (.ok true, e') := by
  intro steps
  obtain ⟨hlog, -, hleads, hprobe⟩ := log_of_commands
  obtain ⟨-, -, hreads⟩ := hlog steps
  have hread := hreads ["b\nc", ""] (.cleared [.append "a\n"] ["b\nc", ""])
  have htext := hread.text (by simp)
  have hlines := hread.lines (by simp)
  rw [htext] at hlines
  have hsource : isSource buildingEngine.session.path = true := by decide +kernel
  have hrun : probe buildingEngine = (.ok true, (probe buildingEngine).2) :=
    Action.eq_of_toOption (by decide +kernel)
  have hgrows := hleads (run buildingEngine).2 _ (.deed .close .here)
  exact ⟨htext.trans (by decide), hlines.trans (by decide), hgrows, _, hrun,
    hprobe _ _ _ hsource hrun _⟩

end Workbench.Engine
