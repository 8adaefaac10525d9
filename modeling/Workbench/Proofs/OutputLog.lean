import Mathlib.Data.List.Induction
import Workbench.Proofs.Engine.Compile
import Workbench.Proofs.Text.Lines

/-!
# What a log holds

* `splitLines_isInfix_linesOf` : a text that was put there among others has its lines in a row;
* `OutputLog.Step`, `OutputLog.run` : texts that are put at the end of a log, and a log that is
  emptied;
* `Since steps texts` : the texts that were put there since the log was last emptied;
* `Reads log texts` : a log reads as these texts, one below the other;
* `reads_run` : a log reads as the texts since it was last emptied;
* `not_mem_of_mem_run` : no line of it holds a line feed.
-/

namespace Workbench

namespace Text

theorem joinLines_splitLines (s : String) : joinLines (splitLines s) = s := by
  have hlists : (splitLines s).map String.toList = splitOn '\n' s.toList := by
    rw [splitLines, List.map_map]
    refine (List.map_congr_left fun piece _ => ?_).trans (List.map_id _)
    exact String.toList_ofList
  rw [joinLines, hlists, joinWith_splitOn, String.ofList_toList]

/-- Texts one below the other have the lines of all of them. -/
theorem splitLines_interleave {texts : List String} (h : texts ≠ []) :
    splitLines (interleave "\n" texts) = texts.flatMap splitLines := by
  induction texts with
  | nil => exact absurd rfl h
  | cons text texts ih =>
    cases texts with
    | nil => exact (List.flatMap_singleton splitLines text).symm
    | cons next texts =>
      have hrest := ih (List.cons_ne_nil next texts)
      rw [List.flatMap_cons, ← hrest, ← splitLines_append]
      rfl

end Text

namespace OutputLog

theorem linesOf_singleton (text : String) : linesOf [text] = Text.splitLines text :=
  List.flatMap_singleton Text.splitLines text

/-- A text that is said stands in the log with all its lines. -/
theorem splitLines_isInfix_linesOf {text : String} {texts : List String} (h : text ∈ texts) :
    Text.splitLines text <:+: linesOf texts := by
  obtain ⟨before, after, rfl⟩ := List.append_of_mem h
  rw [linesOf, List.flatMap_append, List.flatMap_cons]
  exact ⟨_, _, List.append_assoc _ _ _⟩

/-- What can be done to a log. -/
inductive Step
  | append (text : String)
  | clear

def Step.apply (log : OutputLog) : Step → OutputLog
  | .append text => log.append text
  | .clear => []

/-- The log after steps. -/
def run (log : OutputLog) (steps : List Step) : OutputLog := steps.foldl Step.apply log

/-- The texts that steps appended since the log was last emptied, or since they began. -/
inductive Since : List Step → List String → Prop
  | begun (texts : List String) : Since (texts.map .append) texts
  | cleared (before : List Step) (texts : List String) :
      Since (before ++ .clear :: texts.map .append) texts

theorem Since.append {steps : List Step} {texts : List String} (h : Since steps texts)
    (text : String) : Since (steps ++ [.append text]) (texts ++ [text]) := by
  cases h with
  | begun texts =>
    have hsteps := Since.begun (texts ++ [text])
    rwa [List.map_append] at hsteps
  | cleared before texts =>
    have hsteps := Since.cleared before (texts ++ [text])
    rwa [List.map_append, ← List.cons_append, ← List.append_assoc] at hsteps

/-- Steps always leave some texts. By induction from their end. -/
theorem exists_since (steps : List Step) : ∃ texts, Since steps texts := by
  induction steps using List.reverseRecOn with
  | nil => exact ⟨[], .begun []⟩
  | append_singleton steps step ih =>
    cases step with
    | append text =>
      obtain ⟨texts, h⟩ := ih
      exact ⟨texts ++ [text], h.append text⟩
    | clear => exact ⟨[], .cleared steps []⟩

theorem run_append (log : OutputLog) (steps more : List Step) :
    run log (steps ++ more) = run (run log steps) more := List.foldl_append

theorem run_map_append (log : OutputLog) (texts : List String) :
    run log (texts.map .append) = log ++ linesOf texts := by
  rw [← foldl_append, run, List.foldl_map]
  rfl

theorem run_of_since {steps : List Step} {texts : List String} (h : Since steps texts) :
    run [] steps = linesOf texts := by
  cases h with
  | begun texts => exact run_map_append [] texts
  | cleared before texts =>
    rw [run_append]
    exact run_map_append [] texts

/-- A log reads as these texts, with a line feed between each two. Without any text it is empty. -/
structure Reads (log : OutputLog) (texts : List String) : Prop where
  text : texts ≠ [] → log.text = Text.interleave "\n" texts
  lines : texts ≠ [] → log = Text.splitLines log.text
  empty : texts = [] → log = []

theorem reads_linesOf (texts : List String) : Reads (linesOf texts) texts := by
  have htext : texts ≠ [] → OutputLog.text (linesOf texts) = Text.interleave "\n" texts := by
    intro hne
    rw [linesOf, ← Text.splitLines_interleave hne]
    exact Text.joinLines_splitLines _
  refine ⟨htext, fun hne => ?_, ?_⟩
  · rw [htext hne, Text.splitLines_interleave hne]
    rfl
  · rintro rfl
    rfl

/-- A log reads as the texts that were appended since it was last emptied. -/
theorem reads_run {steps : List Step} {texts : List String} (h : Since steps texts) :
    Reads (run [] steps) texts := by
  rw [run_of_since h]
  exact reads_linesOf texts

theorem not_mem_of_mem_linesOf {texts : List String} {line : String} (h : line ∈ linesOf texts) :
    '\n' ∉ line.toList := by
  obtain ⟨text, -, hline⟩ := List.mem_flatMap.1 h
  exact Text.not_mem_of_mem_splitLines hline

theorem not_mem_of_mem_run {steps : List Step} {line : String} (h : line ∈ run [] steps) :
    '\n' ∉ line.toList := by
  obtain ⟨texts, hsince⟩ := exists_since steps
  rw [run_of_since hsince] at h
  exact not_mem_of_mem_linesOf h

end OutputLog

end Workbench
