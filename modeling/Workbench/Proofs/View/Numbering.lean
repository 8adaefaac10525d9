import Workbench.Proofs.Text.LineEnds
import Workbench.Proofs.View.Source
import Workbench.Session

/-!
# Which line a diagnostic is drawn on

Compilers count the lines of a source by its line feeds. The lines that are shown end at other
characters as well, and below the first of these a diagnostic is drawn on another line than the one
it is about.

* `numbering_of_load` : how far the rows of the view are numbered as compilers number them;
* `drawn_on_rest_of_line` : a form feed in the first line, and a diagnostic about the second one.
-/

namespace Workbench

open Text (feedLines Unended isLineEnd)

/-- The lines of a loaded source are those that line feeds end exactly if there is no other line end
in it, and the first of them are so exactly as far as there is none. As far as that, the row of a
line of the source has the number, the mark and the text of the line that a compiler means. -/
theorem numbering_of_load (τ : Type) [Rich τ] [LawfulRich τ] (s : Session) (code : String)
    (ds : List Diagnostic) :
    let lines := (s.load code).lines
    let view : τ := View.source lines ds
    (lines = feedLines code ↔ ∀ c ∈ code.toList, isLineEnd c = true → c = '\n') ∧
      (∀ n, lines.take n = (feedLines code).take n ↔
        ∀ line ∈ (feedLines code).take n, Unended line.toList) ∧
      ∀ n line, (feedLines code)[n]? = some line →
        (∀ line ∈ (feedLines code).take (n + 1), Unended line.toList) →
        (Text.splitOn '\n' (Rich.plain view))[n]? =
          some (View.gutterText lines ds n ++ Rich.visible line) := by
  intro lines view
  refine ⟨Text.lines_eq_feedLines_iff code, fun n => Text.take_lines_iff n code, ?_⟩
  intro n line hline hunended
  have htake : lines.take (n + 1) = (feedLines code).take (n + 1) :=
    (Text.take_lines_iff (n + 1) code).2 hunended
  have hloaded : lines[n]? = some line := by
    rw [← List.getElem?_take_of_lt (Nat.lt_succ_self n), htake,
      List.getElem?_take_of_lt (Nat.lt_succ_self n), hline]
  rw [View.plain_seen_source]
  exact View.getElem?_splitOn_source (fun line h => (Text.unended_of_mem_lines h).not_mem) hloaded

/-- The first line is drawn as such, a form feed being in the second one. -/
theorem numbering_of_form_feed :
    let code := "a\nb\x0cc\n"
    let ds : List Diagnostic := [⟨0, 0, .error, "x"⟩]
    let view : StyledText := View.source (Session.load {} code).lines ds
    (feedLines code)[0]? = some "a" ∧ (∀ line ∈ (feedLines code).take 1, Unended line.toList) ∧
      (Text.splitOn '\n' view.plain)[0]? = some "1 ● a".toList := by
  intro code ds view
  have hfirst : (feedLines code)[0]? = some "a" := by decide
  have hunended : ∀ line ∈ (feedLines code).take 1, Unended line.toList := by decide
  have hrow := (numbering_of_load StyledText {} code ds).2.2 0 "a" hfirst hunended
  exact ⟨hfirst, hunended, hrow.trans (by decide)⟩

/-- A form feed in the first line is taken for its end. What a compiler says about the second line is
drawn on the rest of the first one. -/
theorem drawn_on_rest_of_line :
    let code := "a\x0cb\nc\n"
    let lines := (Session.load {} code).lines
    let view : StyledText := View.source lines [⟨1, 0, .error, "x"⟩]
    '\r' ∉ code.toList ∧ feedLines code = ["a\x0cb", "c"] ∧ lines = ["a", "b", "c"] ∧
      Text.splitOn '\n' view.plain =
        ["1   a".toList, "2 ● b".toList, "3   c".toList] := by
  decide

end Workbench
