import Workbench.Diagnostic.Extract
import Workbench.Proofs.Diagnostic.Head
import Workbench.Proofs.Text.Lines

/-!
# Blanks at the end of a line

Blanks at the end of a line are no part of any message, but they can make a shape out of a text that
ended with its last colon. Such a shape has a blank message, and none of its kind stands behind it, so
it changes nothing:

* `OccursAt.append` : an occurrence stays where it is when the line goes on;
* `OccursAt.of_append` : an occurrence in the longer line was there before, or there is nothing but
  the new characters to its message;
* `find_append_blanks` : blanks do not change what a shape says;
* `unchanged_by_trailing_blanks` : nor what a line says, nor an output whose line feeds get carriage
  returns before them.
-/

namespace Workbench

namespace Text

/-- The text with a carriage return before every line feed. -/
def withReturns (s : List Char) : List Char :=
  s.flatMap fun c => if c = '\n' then ['\r', '\n'] else [c]

/-- The lines of such a text are those of the text, some of them with a carriage return behind them. -/
theorem splitOn_withReturns (s : List Char) :
    List.Forall₂ (fun piece piece' => piece' = piece ∨ piece' = piece ++ ['\r']) (splitOn '\n' s)
      (splitOn '\n' (withReturns s)) := by
  unfold withReturns
  induction s with
  | nil => exact .cons (.inl rfl) .nil
  | cons c s ih =>
    rw [List.flatMap_cons]
    by_cases hc : c = '\n'
    · subst hc
      rw [if_pos rfl]
      exact .cons (.inr rfl) ih
    · rw [if_neg hc, List.singleton_append, splitOn, if_neg hc, splitOn, if_neg hc]
      cases hs : splitOn '\n' s with
      | nil => exact absurd hs (splitOn_ne_nil '\n' s)
      | cons piece pieces =>
        rw [hs] at ih
        obtain ⟨piece', pieces', hpiece, hpieces, he⟩ := List.forall₂_cons_left_iff.1 ih
        rw [he]
        refine .cons ?_ hpieces
        rcases hpiece with rfl | rfl
        · exact .inl rfl
        · exact .inr rfl

end Text

namespace Diagnostic
open Text (isBlank isDigit trim)

variable {shape : Shape} {s w : List Char} {i : Nat}

/-! ## A line that goes on -/

theorem Shape.OccursAt.lt_length {f : Fields} (h : shape.OccursAt s i f) : i < s.length := by
  obtain ⟨head, hs, -, -⟩ := h.writes.exists_head
  have hlength := congrArg List.length hs
  rw [List.length_drop, List.length_append, List.length_cons] at hlength
  omega

/-- An occurrence stays where it is, and what comes behind the line comes to its rest. -/
theorem Shape.OccursAt.append {f : Fields} (h : shape.OccursAt s i f) (w : List Char) :
    shape.OccursAt (s ++ w) i { f with rest := f.rest ++ w } := by
  have hi := h.lt_length
  obtain ⟨head, hs, -, hwrites⟩ := h.writes.exists_head
  constructor
  · have hrest : f.rest ++ w ≠ [] := List.append_ne_nil_of_left_ne_nil h.writes.rest_ne_nil w
    have hdrop : (s ++ w).drop i = head ++ ':' :: (f.rest ++ w) := by
      rw [List.drop_append_of_le_length (Nat.le_of_lt hi), hs, List.append_assoc, List.cons_append]
    rw [hdrop]
    exact hwrites _ hrest
  · intro separator hseparator
    obtain ⟨j, c, rfl, hj, hc⟩ := h.named separator hseparator
    exact ⟨j, c, rfl, by rwa [List.getElem?_append_left (by omega)], hc⟩

/-- What occurs in a line that goes on without a colon was there before, or the line ended with the
last colon of the shape. -/
theorem Shape.OccursAt.of_append {g : Fields} (h : shape.OccursAt (s ++ w) i g) (hw : ':' ∉ w) :
    (∃ f, shape.OccursAt s i f) ∨
      g.rest <:+ w ∧ (s.drop i).count ':' = shape.colons ∧ (s.drop i).getLast? = some ':' := by
  obtain ⟨head, hs, hcount, hwrites⟩ := h.writes.exists_head
  rw [List.drop_append] at hs
  have hsuffix := List.drop_suffix (i - s.length) w
  rcases List.append_eq_append_iff.1 hs with ⟨z, -, hz⟩ | ⟨z, hz, hz'⟩
  · -- the last colon would be in the new characters
    exact absurd (hsuffix.mem (by rw [hz]; simp)) hw
  · match z with
    | [] =>
      refine absurd (hsuffix.mem ?_) hw
      rw [← List.nil_append (w.drop _), ← hz']
      exact List.mem_cons_self
    | c :: [] =>
      obtain ⟨rfl, hrest⟩ := List.cons.inj hz'
      refine .inr ⟨hrest ▸ hsuffix, ?_, ?_⟩
      · rw [hz, List.count_append, List.count_singleton_self, hcount]
      · rw [hz, List.getLast?_concat]
    | c :: d :: z =>
      obtain ⟨rfl, hrest⟩ := List.cons.inj hz'
      have hwritten : Writes shape (s.drop i) { g with rest := d :: z } := by
        rw [hz]
        exact hwrites _ (List.cons_ne_nil d z)
      refine .inl ⟨_, hwritten, fun separator hseparator => ?_⟩
      obtain ⟨j, c, rfl, hj, hc⟩ := h.named separator hseparator
      have hlength := congrArg List.length hz
      rw [List.length_drop, List.length_append, List.length_cons] at hlength
      exact ⟨j, c, rfl, by rwa [List.getElem?_append_left (by omega)] at hj, hc⟩

/-! ## Blanks -/

theorem all_isBlank_append (hw : Blanks w) (s : List Char) :
    (s ++ w).all isBlank = s.all isBlank := by
  rw [List.all_append, List.all_eq_true.2 hw, Bool.and_true]

theorem Fields.diagnostic?_append_blanks (hw : Blanks w) (f : Fields) :
    { f with rest := f.rest ++ w : Fields }.diagnostic? = f.diagnostic? := by
  unfold Fields.diagnostic?
  dsimp only
  rw [all_isBlank_append hw, Text.trim_append_of_blanks hw]

/-- A shape without anything but blanks behind it gives no diagnostic. -/
theorem Fields.diagnostic?_of_suffix_blanks {f : Fields} (hw : Blanks w) (h : f.rest <:+ w) :
    f.diagnostic? = none := by
  have hall : f.rest.all isBlank = true := List.all_eq_true.2 fun c hc => hw c (h.mem hc)
  exact if_pos (.inr (.inr (.inr hall)))

/-- Blanks behind a line do not change what a shape says. -/
theorem find_append_blanks (shape : Shape) (hs : OneLine s) (hw : Blanks w) (hw' : OneLine w) :
    (shape.find (s ++ w)).bind Occurrence.diagnostic? =
      (shape.find s).bind Occurrence.diagnostic? := by
  have hline : OneLine (s ++ w) := fun hm => (List.mem_append.1 hm).elim hs hw'
  rcases find_cases shape hline with ⟨i, g, hg, -⟩ | ⟨hno, hnone⟩
  · have hbefore : ∀ j < i, ∀ f, ¬ shape.OccursAt s j f :=
      fun j hj f hf => hg.2 j hj _ (hf.append w)
    rcases hg.1.of_append (List.count_eq_zero.1 hw.count_colon) with ⟨f, hf⟩ | ⟨hrest, hcount, hlast⟩
    · have hlonger : shape.FirstOccurs (s ++ w) i { f with rest := f.rest ++ w } :=
        ⟨hf.append w, hg.2⟩
      rw [find_diagnostic? hline hlonger, Fields.diagnostic?_append_blanks hw,
        find_diagnostic? hs ⟨hf, hbefore⟩]
    · -- a new occurrence, and without the blanks there is none at all
      have hnone : shape.find s = none := by
        refine find_eq_none hs fun j f hf => ?_
        rcases Nat.lt_or_ge j i with hj | hj
        · exact hbefore j hj f hf
        · exact not_writes_of_suffix hcount hlast (List.drop_suffix_drop_left s hj) hf.writes
      rw [find_diagnostic? hline hg, Fields.diagnostic?_of_suffix_blanks hw hrest, hnone]
      rfl
  · rw [hnone, find_eq_none hs fun i f hf => hno i _ (hf.append w)]

/-! ## Lines and outputs -/

theorem ofLine?_append_blanks (shapes : List Shape) {line blanks : String} (hs : OneLine line.toList)
    (hw : Blanks blanks.toList) (hw' : OneLine blanks.toList) :
    ofLine? shapes (line ++ blanks) = ofLine? shapes line := by
  unfold ofLine?
  rw [String.toList_append]
  exact congrArg shapes.findSome? (funext fun shape => find_append_blanks shape hs hw hw')

theorem filterMap_of_forall₂ {α β γ : Type} {f : α → Option γ} {g : β → Option γ} {l : List α}
    {l' : List β} (h : List.Forall₂ (fun a b => f a = g b) l l') :
    l.filterMap f = l'.filterMap g := by
  induction h with
  | nil => rfl
  | cons hab _ ih => rw [List.filterMap_cons, List.filterMap_cons, hab, ih]

theorem extract_withReturns (shapes : List Shape) (output : String) :
    extract shapes (String.ofList (Text.withReturns output.toList)) = extract shapes output := by
  have hblank : Blanks ['\r'] := List.all_eq_true.1 (by decide)
  have hread : ∀ piece piece', OneLine piece ∧ (piece' = piece ∨ piece' = piece ++ ['\r']) →
      ofLine? shapes (String.ofList piece) = ofLine? shapes (String.ofList piece') := by
    rintro piece piece' ⟨hpiece, rfl | rfl⟩
    · rfl
    · rw [String.ofList_append]
      refine (ofLine?_append_blanks shapes ?_ ?_ ?_).symm
      · rwa [String.toList_ofList]
      · rwa [String.toList_ofList]
      · unfold OneLine
        decide
  have hpieces := (List.forall₂_and_left _ _).2
    ⟨fun piece => Text.not_mem_of_mem_splitOn, Text.splitOn_withReturns output.toList⟩
  unfold extract Text.splitLines
  rw [String.toList_ofList]
  refine (filterMap_of_forall₂ ?_).symm
  exact List.forall₂_map_left_iff.2 (List.forall₂_map_right_iff.2 (hpieces.imp hread))

/-- Blanks behind a line do not change its diagnostic, whichever shapes are read in which order, and
an output whose lines end in a carriage return and a line feed has the same diagnostics as one whose
lines end in a line feed. -/
theorem unchanged_by_trailing_blanks (shapes : List Shape) :
    (∀ line blanks : String, OneLine line.toList → OneLine blanks.toList → Blanks blanks.toList →
        ofLine? shapes (line ++ blanks) = ofLine? shapes line) ∧
      ∀ output : String,
        extract shapes (String.ofList (Text.withReturns output.toList)) = extract shapes output :=
  ⟨fun _ _ hs hw' hw => ofLine?_append_blanks shapes hs hw hw', extract_withReturns shapes⟩

/-- With the blanks the line has another shape, and the one it had before still counts. -/
theorem unchanged_by_ideographic_space :
    OneLine "a.cple:1:2: error: line 5:".toList ∧ OneLine " \u3000".toList ∧
      Blanks " \u3000".toList ∧ Shape.line.find "a.cple:1:2: error: line 5:".toList = none ∧
      (Shape.line.find "a.cple:1:2: error: line 5: \u3000".toList).isSome = true ∧
      ofLine? [.line, .located] ("a.cple:1:2: error: line 5:" ++ " \u3000") =
        some { line := 0, column := 2, severity := .error, message := "line 5:" } := by
  have hs : OneLine "a.cple:1:2: error: line 5:".toList := by
    unfold OneLine
    decide
  have hw' : OneLine " \u3000".toList := by
    unfold OneLine
    decide
  have hw : Blanks " \u3000".toList := List.all_eq_true.1 (by decide)
  refine ⟨hs, hw', hw, by decide, by decide, ?_⟩
  rw [(unchanged_by_trailing_blanks [.line, .located]).1 _ _ hs hw' hw]
  decide

end Diagnostic

end Workbench
