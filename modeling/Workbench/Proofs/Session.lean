import Mathlib.Data.List.Induction
import Mathlib.Data.List.Perm.Basic
import Workbench.Session

/-!
# What a session keeps of its diagnostics

Diagnostics are filed for documents, published from outputs and forgotten, in any order, while the
source that is open may change.

* `Step.Puts`, `Step.Touches` : the diagnostics a step puts under a document, and whether it puts
  any. Publishing an output of which nothing is understood touches no document;
* `Leaves` : what steps leave under a document is what the last of them that touches it puts there;
* `collection_run_eq_iff` : a session holds for a document exactly what the steps leave there;
* `get?_apply_of_ne` : a step about one document keeps those of the others;
* `SplitByLine`, `splitByLine_forLine` : the diagnostics of each line are a part of all diagnostics;
* `diagnostics_of_steps` : both together, for every session that steps lead to.
-/

namespace Workbench

namespace Diagnostic

/-- A list of diagnostics, split by line: each part is in the order of the whole and holds the
diagnostics of its line, and the parts of all lines make up the whole. -/
structure SplitByLine (ds : List Diagnostic) (part : Int → List Diagnostic) : Prop where
  sublist : ∀ line, (part line).Sublist ds
  line_eq : ∀ line, ∀ d ∈ part line, d.line = line
  perm : ∀ lines : List Int, lines.Nodup → (∀ d ∈ ds, d.line ∈ lines) →
    (lines.flatMap part).Perm ds

theorem mem_forLine {ds : List Diagnostic} {line : Int} {d : Diagnostic} :
    d ∈ forLine ds line ↔ d ∈ ds ∧ d.line = line := by
  rw [forLine, List.mem_filter, decide_eq_true_iff]

/-- The parts of some lines make up what is about one of them. -/
theorem flatMap_forLine_perm (ds : List Diagnostic) {lines : List Int} (h : lines.Nodup) :
    (lines.flatMap (forLine ds)).Perm (ds.filter fun d => d.line ∈ lines) := by
  induction lines with
  | nil => simp
  | cons line lines ih =>
    obtain ⟨hline, hlines⟩ := List.nodup_cons.1 h
    have hhere : (ds.filter fun d => d.line ∈ line :: lines).filter (fun d => d.line = line)
        = forLine ds line := by
      rw [List.filter_filter, forLine]
      congr 1
      funext d
      by_cases hd : d.line = line <;> simp [hd]
    have hthere : (ds.filter fun d => d.line ∈ line :: lines).filter (fun d => !(d.line = line))
        = ds.filter fun d => d.line ∈ lines := by
      rw [List.filter_filter]
      congr 1
      funext d
      by_cases hd : d.line = line
      · simp [hd, hline]
      · simp [hd]
    calc (line :: lines).flatMap (forLine ds)
        = forLine ds line ++ lines.flatMap (forLine ds) := List.flatMap_cons
      _ |>.Perm (forLine ds line ++ ds.filter fun d => d.line ∈ lines) := (ih hlines).append_left _
      _ |>.Perm (ds.filter fun d => d.line ∈ line :: lines) := by
          rw [← hhere, ← hthere]
          exact List.filter_append_perm _ _

theorem splitByLine_forLine (ds : List Diagnostic) : SplitByLine ds (forLine ds) where
  sublist _ := List.filter_sublist
  line_eq _ _ hd := (mem_forLine.1 hd).2
  perm lines hnodup hall := by
    have hwhole : (ds.filter fun d => d.line ∈ lines) = ds := by
      refine List.filter_eq_self.2 fun d hd => ?_
      exact decide_eq_true (hall d hd)
    exact (flatMap_forLine_perm ds hnodup).trans (List.Perm.of_eq hwhole)

theorem hasErrors_iff (ds : List Diagnostic) : hasErrors ds = true ↔ 0 < errorCount ds := by
  rw [hasErrors, errorCount, List.countP_pos_iff, List.any_eq_true]

end Diagnostic

namespace Session

/-- What can be done to the diagnostics of a session, and to which of them are shown. -/
inductive Step
  | file (document : String) (ds : List Diagnostic)
  | publish (document output : String)
  | forget (document : String)
  | look (path : String)

namespace Step

def apply (s : Session) : Step → Session
  | .file document ds => s.file document ds
  | .publish document output => (s.publish document output).1
  | .forget document => s.forget document
  | .look path => { s with path }

/-- The session after steps. -/
def run (s : Session) (steps : List Step) : Session := steps.foldl apply s

/-- The document a step is about. -/
def document? : Step → Option String
  | .file document _ | .publish document _ | .forget document => some document
  | .look _ => none

/-- The step puts these diagnostics under the document, in the place of all that were there. -/
inductive Puts (document : String) : Step → List Diagnostic → Prop
  | file (ds : List Diagnostic) : Puts document (.file document ds) ds
  | publish {output : String} {ds : List Diagnostic} :
      Diagnostic.extract Diagnostic.Shape.all output = ds → ds ≠ [] →
      Puts document (.publish document output) ds
  | forget : Puts document (.forget document) []

def Touches (document : String) (step : Step) : Prop := ∃ ds, step.Puts document ds

/-- What steps leave under a document: what the last of them that touches it puts there, and nothing
if none does. -/
inductive Leaves (document : String) : List Step → List Diagnostic → Prop
  | nothing {steps : List Step} : (∀ step ∈ steps, ¬ step.Touches document) →
      Leaves document steps []
  | last {before after : List Step} {step : Step} {ds : List Diagnostic} :
      step.Puts document ds → (∀ later ∈ after, ¬ later.Touches document) →
      Leaves document (before ++ step :: after) ds

/-! ## One step -/

theorem collection_publish (s : Session) (document output : String) :
    (s.publish document output).1.collection =
      if Diagnostic.extract Diagnostic.Shape.all output = [] then s.collection
      else Record.put s.collection document
        (Diagnostic.extract Diagnostic.Shape.all output) := rfl

theorem of_apply_of_puts {document : String} {step : Step} {ds : List Diagnostic}
    (h : step.Puts document ds) (s : Session) : (step.apply s).collection.of document = ds := by
  cases h with
  | file =>
    rw [apply, Session.file, Collection.of, Record.get?_put, if_pos rfl]
    rfl
  | publish hds hne =>
    rw [apply, collection_publish, hds, if_neg hne, Collection.of, Record.get?_put, if_pos rfl]
    rfl
  | forget =>
    rw [apply, Session.forget, Collection.of, Record.get?_erase, if_pos rfl]
    rfl

/-- An output of which nothing is understood leaves the session as it is. -/
theorem publish_of_extract_eq_nil (s : Session) (document : String) {output : String}
    (h : Diagnostic.extract Diagnostic.Shape.all output = []) :
    s.publish document output = (s, []) := by
  rw [Session.publish, Collection.publish, h]
  rfl

/-- A step about one document keeps those of the others. -/
theorem get?_apply_of_ne {document : String} {step : Step} (h : step.document? ≠ some document)
    (s : Session) :
    Record.get? (step.apply s).collection document = Record.get? s.collection document := by
  cases step with
  | file other ds =>
    have hne : other ≠ document := fun he => h (congrArg some he)
    rw [apply, Session.file, Record.get?_put, if_neg hne]
  | publish other output =>
    have hne : other ≠ document := fun he => h (congrArg some he)
    rw [apply, collection_publish]
    split
    · rfl
    · rw [Record.get?_put, if_neg hne]
  | forget other =>
    have hne : other ≠ document := fun he => h (congrArg some he)
    rw [apply, Session.forget, Record.get?_erase, if_neg hne]
  | look => rfl

theorem get?_apply_of_not_touches {document : String} {step : Step} (h : ¬ step.Touches document)
    (s : Session) :
    Record.get? (step.apply s).collection document = Record.get? s.collection document := by
  by_cases hne : step.document? = some document
  · cases step with
    | file _ ds =>
      cases hne
      exact absurd ⟨ds, .file ds⟩ h
    | publish _ output =>
      cases hne
      -- nothing can be understood of the output, or the step would touch the document
      have hnil : Diagnostic.extract Diagnostic.Shape.all output = [] :=
        by_contra fun hne => h ⟨_, .publish rfl hne⟩
      rw [apply, publish_of_extract_eq_nil s document hnil]
    | forget =>
      cases hne
      exact absurd ⟨[], .forget⟩ h
    | look => exact nomatch hne
  · exact get?_apply_of_ne hne s

/-! ## All steps -/

theorem get?_run_of_not_touches {document : String} {steps : List Step}
    (h : ∀ step ∈ steps, ¬ step.Touches document) (s : Session) :
    Record.get? (run s steps).collection document = Record.get? s.collection document := by
  induction steps generalizing s with
  | nil => rfl
  | cons step steps ih =>
    obtain ⟨hstep, hsteps⟩ := List.forall_mem_cons.1 h
    exact (ih hsteps (step.apply s)).trans (get?_apply_of_not_touches hstep s)

theorem Leaves.collection_run {document : String} {steps : List Step} {ds : List Diagnostic}
    (h : Leaves document steps ds) {s : Session} (hs : s.collection = []) :
    (run s steps).collection.of document = ds := by
  cases h with
  | nothing hnone =>
    rw [Collection.of, get?_run_of_not_touches hnone s, hs]
    rfl
  | @last before after step _ hputs hafter =>
    rw [run, List.foldl_append, List.foldl_cons, Collection.of]
    exact (congrArg (·.getD []) (get?_run_of_not_touches hafter _)).trans
      (of_apply_of_puts hputs _)

theorem Leaves.concat {document : String} {steps : List Step} {ds : List Diagnostic}
    (h : Leaves document steps ds) {step : Step} (hstep : ¬ step.Touches document) :
    Leaves document (steps ++ [step]) ds := by
  have hlast : ∀ {after : List Step}, (∀ later ∈ after, ¬ later.Touches document) →
      ∀ later ∈ after ++ [step], ¬ later.Touches document := by
    intro after hafter later hlater
    rcases List.mem_append.1 hlater with hlater | hlater
    · exact hafter later hlater
    · exact List.eq_of_mem_singleton hlater ▸ hstep
  cases h with
  | nothing hnone => exact .nothing (hlast hnone)
  | last hputs hafter =>
    rw [List.append_assoc, List.cons_append]
    exact .last hputs (hlast hafter)

theorem exists_leaves (document : String) (steps : List Step) : ∃ ds, Leaves document steps ds := by
  induction steps using List.reverseRecOn with
  | nil => exact ⟨[], .nothing fun _ h => nomatch h⟩
  | append_singleton steps step ih =>
    by_cases h : step.Touches document
    · obtain ⟨ds, hputs⟩ := h
      exact ⟨ds, .last hputs fun _ h => nomatch h⟩
    · exact ih.imp fun ds hds => hds.concat h

/-- A session holds for a document exactly what the steps leave there. -/
theorem collection_run_eq_iff {s : Session} (hs : s.collection = []) (steps : List Step)
    (document : String) (ds : List Diagnostic) :
    (run s steps).collection.of document = ds ↔ Leaves document steps ds := by
  constructor
  · rintro rfl
    obtain ⟨ds, hds⟩ := exists_leaves document steps
    rwa [hds.collection_run hs]
  · exact fun h => h.collection_run hs

end Step

/-- Steps that start from a session without diagnostics lead to a session that holds for each
document what the last step that touches it put there. A step about one document keeps those of the
others, and publishing an output of which nothing is understood keeps all. The diagnostics of the
open document are errors and warnings, and those of each line are a part of them. -/
theorem diagnostics_of_steps (path : String) (steps : List Step) :
    let s := Step.run { path } steps
    (∀ document ds, s.collection.of document = ds ↔ Step.Leaves document steps ds) ∧
    (∀ (step : Step) (document : String), step.document? ≠ some document →
      (step.apply s).collection.of document = s.collection.of document) ∧
    (∀ document output, Diagnostic.extract Diagnostic.Shape.all output = [] →
      s.publish document output = (s, [])) ∧
    Step.Leaves s.path steps s.diagnostics ∧
    s.errorCount + s.warningCount = s.diagnostics.length ∧
    (s.hasErrors = true ↔ 0 < s.errorCount) ∧
    Diagnostic.SplitByLine s.diagnostics (Diagnostic.forLine s.diagnostics) := by
  intro s
  have hleaves : ∀ document ds, s.collection.of document = ds ↔ Step.Leaves document steps ds :=
    Step.collection_run_eq_iff rfl steps
  refine ⟨hleaves, ?_, ?_, (hleaves s.path _).1 rfl, ?_, ?_, ?_⟩
  · intro step document hne
    exact congrArg (·.getD []) (Step.get?_apply_of_ne hne s)
  · exact fun document output h => Step.publish_of_extract_eq_nil s document h
  · exact Diagnostic.errorCount_add_warningCount s.diagnostics
  · exact Diagnostic.hasErrors_iff s.diagnostics
  · exact Diagnostic.splitByLine_forLine s.diagnostics

end Session

end Workbench
