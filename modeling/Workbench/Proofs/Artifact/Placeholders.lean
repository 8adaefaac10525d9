import Workbench.Proofs.Artifact.Defaults
import Workbench.Proofs.Template

/-!
# Candidates of plain templates

A plain template is put together from texts, with their braces written twice, and from placeholders
that have nothing but a name.

* `Placeholder` : what a placeholder can stand for, the directory of the source, the two above it
  and the name of the source without its suffix;
* `Part`, `written`, `filled` : the parts of a plain template, how they are written, and the text
  with the values in the places of the placeholders;
* `expand_append_of_part` : one part, in front of any rest;
* `expand_written`, `candidates_written` : the texts and the candidates of plain templates.

A value is put in as it is. The names in it may have braces, and these are not read as a template.
-/

namespace Workbench.Artifact

open Settings (Value)
open Text (CodePoints)

inductive Placeholder
  | directory
  | parent
  | grandparent
  | base
  deriving DecidableEq, Repr

namespace Placeholder

/-- The name of the field in a template. -/
def name : Placeholder → String
  | .directory => "dir"
  | .parent => "parent"
  | .grandparent => "grandparent"
  | .base => "base"

/-- What the placeholder stands for, for the absolute path of a source. -/
def value (source : Path) : Placeholder → String
  | .directory => source.parent.text
  | .parent => source.parent.parent.text
  | .grandparent => source.parent.parent.parent.text
  | .base => source.stem

theorem isPlain_name (p : Placeholder) : Template.IsPlain p.name := by
  cases p
  all_goals exact ⟨by decide, rfl, by decide⟩

theorem get?_values (cwd source : String) (p : Placeholder) :
    (values cwd source).get? p.name = some (p.value (Path.absolute cwd source)) := by
  cases p
  all_goals rfl

end Placeholder

/-- A part of a plain template. The text may have halves of surrogate pairs. -/
inductive Part
  | text (s : CodePoints)
  | placeholder (p : Placeholder)
  deriving DecidableEq, Repr

namespace Part

/-- How a part is written in a template. -/
def written : Part → CodePoints
  | .text s => Template.doubled s
  | .placeholder p => Template.fieldOf p.name

/-- What a part becomes, for the absolute path of a source. -/
def filled (source : Path) : Part → CodePoints
  | .text s => s
  | .placeholder p => CodePoints.ofString (p.value source)

end Part

/-- The plain template with these parts. -/
def written (parts : List Part) : CodePoints := parts.flatMap Part.written

/-- The text of a plain template, for the absolute path of a source. -/
def filled (source : Path) (parts : List Part) : CodePoints := parts.flatMap (Part.filled source)

section Expansion
variable (cwd source : String)

/-- A part in front of a template comes in front of its text, if there is one. -/
theorem expand_append_of_part (part : Part) (t : CodePoints) :
    Template.expand (values cwd source).get? (part.written ++ t) =
      (Template.expand (values cwd source).get? t).map
        (part.filled (Path.absolute cwd source) ++ ·) := by
  cases part with
  | text s => exact Template.expand_append_of_doubled _ s t
  | placeholder p =>
    exact Template.expand_append_of_plain p.isPlain_name (p.get?_values cwd source) t

theorem expand_written (parts : List Part) :
    Template.expand (values cwd source).get? (written parts) =
      .ok (filled (Path.absolute cwd source) parts) := by
  induction parts with
  | nil => rfl
  | cons part parts ih =>
    have hwritten : written (part :: parts) = part.written ++ written parts := rfl
    rw [hwritten, expand_append_of_part, ih]
    rfl

theorem expand_doubled (s : CodePoints) :
    Template.expand (values cwd source).get? (Template.doubled s) = .ok s := by
  have hwritten := expand_written cwd source [.text s]
  simp only [written, filled, List.flatMap_singleton] at hwritten
  exact hwritten

theorem candidate_of_expand {t s : CodePoints}
    (h : Template.expand (values cwd source).get? t = .ok s) :
    candidate (values cwd source) (.text t) = .ok (.ofText s) := by
  unfold candidate
  dsimp only
  rw [h]

/-- The candidates of plain templates are the paths of their texts, with the values in the places of
the placeholders. So the template with the braces of a text written twice has the path of that
text. -/
theorem candidates_written :
    (∀ templates : List (List Part),
      candidates cwd source (templates.map fun parts => .text (written parts)) =
        .ok (templates.map fun parts =>
          Candidate.ofText (filled (Path.absolute cwd source) parts))) ∧
    (∀ s : CodePoints, candidates cwd source [.text (Template.doubled s)] =
      .ok [Candidate.ofText s]) ∧
    ∀ s : String, candidates cwd source [.text (Template.escape s : String)] =
      .ok [{ path := Path.ofText s }] := by
  refine ⟨fun templates => ?_, fun s => ?_, fun s => ?_⟩
  · apply candidatesFor_eq_ok
    rw [List.forall₂_map_left_iff, List.forall₂_map_right_iff, List.forall₂_same]
    intro parts _
    exact candidate_of_expand cwd source (expand_written cwd source parts)
  · have hs := candidate_of_expand cwd source (expand_doubled cwd source s)
    exact candidatesFor_eq_ok (.cons hs .nil)
  · have hs := candidate_of_expand cwd source (Template.expand_escape _ s)
    rw [ofText_ofString] at hs
    exact candidatesFor_eq_ok (.cons hs .nil)

/-- A directory with a name in braces is put in as it is. -/
example : (candidates "/" "/\x7bbase\x7d/a.cple"
      [.text (written [.placeholder .directory, .text "/\x7b", .placeholder .base])]).toOption =
    some [{ path := ⟨.single, ["\x7bbase\x7d", "\x7ba"]⟩ }] := by
  decide +kernel

end Expansion

end Workbench.Artifact
