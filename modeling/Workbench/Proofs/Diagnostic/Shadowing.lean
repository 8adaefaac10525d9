import Workbench.Proofs.Diagnostic.Head

/-!
# Shapes behind another one

`error: line 5: message` and `error at line 5: message` have a line number, a colon and a message in
them, so a line with one of these shapes also has the shape `line 5: message`. That one is asked
before them, and its number may be another one, but its message is not blank if theirs is not:

* `FirstLineNumber s i ds` : the first line number with a colon in the line `s`, and its digits;
* `NamesNoLine ds` : digits that cannot be used for a line;
* `shadowed_by_line` : where a shape of the two gives a diagnostic, the shape before them gives one
  unless the first line number cannot be used.
-/

namespace Workbench.Diagnostic
open Text (isBlank)

variable {s : List Char} {i j : Nat}

/-- The first place of the line with the word `line`, a number and a colon, and the digits of the
number. -/
structure FirstLineNumber (s : List Char) (i : Nat) (ds : List Char) : Prop where
  stands : ∃ x rest, IsLineNumber x ds ∧ s.drop i = x ++ ':' :: rest
  first : ∀ j < i, ∀ x es rest, IsLineNumber x es → s.drop j ≠ x ++ ':' :: rest

/-- The digits of a line that there cannot be, or too many of them. -/
def NamesNoLine (ds : List Char) : Prop :=
  Text.value ds = 0 ∨ Number.digitLimit < ds.length

/-! ## The shape of a line number -/

theorem occursAt_line {f : Fields} : Shape.line.OccursAt s i f ↔ Writes .line (s.drop i) f :=
  ⟨fun h => h.writes, fun h => ⟨h, fun _ hs => absurd hs (Option.not_mem_none _)⟩⟩

/-- What occurs first as the shape is the first line number at all, since a line number behind which
the line ends has no other one behind it. -/
theorem Shape.FirstOccurs.firstLineNumber {f : Fields} (h : Shape.line.FirstOccurs s i f) :
    FirstLineNumber s i f.line := by
  obtain ⟨hoccurs, hbefore⟩ := h
  have hwrites := hoccurs.writes
  constructor
  · generalize s.drop i = t at hwrites
    cases hwrites with
    | @line x ds rest hx => exact ⟨x, rest, hx, rfl⟩
  · intro j hj x ds rest hx hdrop
    cases rest with
    | cons c rest =>
      have hline : Writes .line (s.drop j) { line := ds, rest := c :: rest } := by
        rw [hdrop]
        exact .line hx (List.cons_ne_nil c rest)
      exact hbefore j hj _ (occursAt_line.2 hline)
    | nil =>
      have hcount : (s.drop j).count ':' = Shape.line.colons := by
        rw [hdrop, List.count_append, hx.count_colon]
        rfl
      have hlast : (s.drop j).getLast? = some ':' := by rw [hdrop, List.getLast?_concat]
      exact not_writes_of_suffix hcount hlast
        (List.drop_suffix_drop_left s (Nat.le_of_lt hj)) hwrites

/-- The message of the first line number has those of the later ones in it. -/
theorem Shape.FirstOccurs.suffix_rest {f g : Fields} (h : Shape.line.FirstOccurs s i g)
    (hf : Shape.line.OccursAt s j f) : f.rest <:+ g.rest := by
  have hij : i ≤ j := Nat.le_of_not_lt fun hlt => h.2 j hlt f hf
  obtain ⟨head, hs, hcount, -⟩ := h.1.writes.exists_head
  obtain ⟨head', hs', -, -⟩ := hf.writes.exists_head
  have hcolon : ':' ∉ head := List.count_eq_zero.1 (Nat.add_right_cancel hcount)
  obtain ⟨between, hbetween⟩ := List.drop_suffix_drop_left s hij
  rw [hs, hs', ← List.append_assoc] at hbetween
  rcases append_colon_eq hcolon hbetween.symm with he | ⟨z, -, hz⟩
  · rw [he] at hbetween
    exact (List.cons.inj (List.append_cancel_left hbetween)).2 ▸ List.suffix_rfl
  · exact ⟨z ++ [':'], by rw [hz, List.append_assoc, List.singleton_append]⟩

theorem ofLine?_singleton (shape : Shape) (line : String) :
    ofLine? [shape] line = (shape.find line.toList).bind Occurrence.diagnostic? :=
  List.findSome?_singleton

/-! ## The shapes behind it -/

/-- The shape has a line number, a colon and the rest of the line behind its first words. -/
theorem Writes.exists_line {shape : Shape} {f : Fields} (h : Writes shape s f)
    (hshape : shape = .errorLine ∨ shape = .errorAt ∧ f.column = none) :
    ∃ j g, Writes .line (s.drop j) g ∧ g.rest = f.rest := by
  cases h with
  | located | line | called => simp at hshape
  | errorAtColumn => simp at hshape
  | @errorAt w gap at_ gap' x ds rest _ _ _ _ hline hrest =>
    refine ⟨(w ++ gap ++ at_ ++ gap').length, { line := ds, rest }, ?_, rfl⟩
    have hs : w ++ (gap ++ (at_ ++ (gap' ++ (x ++ ':' :: rest)))) =
        (w ++ gap ++ at_ ++ gap') ++ (x ++ ':' :: rest) := by simp
    rw [hs, List.drop_left]
    exact .line hline hrest
  | @errorLine w gap x ds rest _ _ hline hrest =>
    refine ⟨(w ++ ':' :: gap).length, { line := ds, rest }, ?_, rfl⟩
    have hs : w ++ ':' :: (gap ++ (x ++ ':' :: rest)) = (w ++ ':' :: gap) ++ (x ++ ':' :: rest) := by
      simp
    rw [hs, List.drop_left]
    exact .line hline hrest

theorem Fields.diagnostic?_eq_none_iff {f : Fields} :
    f.diagnostic? = none ↔ NamesNoLine f.line ∨
      (∃ column ∈ f.column, Number.digitLimit < column.length) ∨ f.rest.all isBlank = true := by
  unfold Fields.diagnostic? NamesNoLine
  rw [or_assoc]
  split
  · next hbad => exact iff_of_true rfl hbad
  · next hgood => exact iff_of_false (Option.some_ne_none _) hgood

theorem Writes.column_eq_none {f : Fields} (h : Writes .line s f) : f.column = none := by
  cases h
  rfl

/-- Behind a diagnostic of one of the two shapes, the first line number of the line decides whether the
shape before them gives one. -/
theorem exists_firstOccurs_line {line : String} (h : OneLine line.toList) {shape : Shape}
    {o : Occurrence} (hshape : shape = .errorLine ∨ shape = .errorAt ∧ o.column = none)
    (hfind : shape.find line.toList = some o) (ho : o.diagnostic? ≠ none) :
    ∃ i f, Shape.line.FirstOccurs line.toList i f ∧
      (ofLine? [.line] line = none ↔ NamesNoLine f.line) := by
  rcases find_cases shape h with ⟨k, g, hg, hfound⟩ | ⟨-, hnone⟩
  · obtain rfl := Option.some.inj (hfound.symm.trans hfind)
    have hrest : ¬ g.rest.all isBlank = true := by
      rw [Fields.diagnostic?_occurrence (h.of_suffix hg.1.rest_suffix), ne_eq,
        Fields.diagnostic?_eq_none_iff] at ho
      exact fun hall => ho (.inr (.inr hall))
    obtain ⟨j, e, hwrites, he⟩ := hg.1.writes.exists_line hshape
    rw [List.drop_drop] at hwrites
    rcases find_cases .line h with ⟨i, f, hf, -⟩ | ⟨hno, -⟩
    · refine ⟨i, f, hf, ?_⟩
      have hblank : ¬ f.rest.all isBlank = true := by
        intro hall
        refine hrest (List.all_eq_true.2 fun c hc => List.all_eq_true.1 hall c ?_)
        exact (hf.suffix_rest (occursAt_line.2 hwrites)).mem (he ▸ hc)
      rw [ofLine?_singleton, find_diagnostic? h hf, Fields.diagnostic?_eq_none_iff,
        hf.1.writes.column_eq_none]
      constructor
      · rintro (hbad | ⟨_, hcolumn, -⟩ | hall)
        · exact hbad
        · exact absurd hcolumn (Option.not_mem_none _)
        · exact absurd hall hblank
      · exact .inl
    · exact absurd (occursAt_line.2 hwrites) (hno _ e)
  · rw [hnone] at hfind
    exact nomatch hfind

/-! ## Reading in several shapes -/

theorem ofLine?_append (shapes shapes' : List Shape) (line : String) :
    ofLine? (shapes ++ shapes') line = (ofLine? shapes line).or (ofLine? shapes' line) :=
  List.findSome?_append

theorem ofLine?_singleton_of_eq_none {shapes : List Shape} {line : String} {shape : Shape}
    (h : ofLine? shapes line = none) (hshape : shape ∈ shapes) : ofLine? [shape] line = none := by
  rw [ofLine?_singleton]
  exact List.findSome?_eq_none_iff.1 h shape hshape

theorem isSome_search {shape : Shape} {s : List Char} (h : OneLine s) {f : Fields}
    (hf : shape.FirstOccurs s i f) : (shape.pattern.search s).isSome = true := by
  rcases find_cases shape h with ⟨_, g, -, hfound⟩ | ⟨hno, -⟩
  · rw [← Option.isSome_map, ← find_eq_search, hfound]
    rfl
  · exact absurd hf.1 (hno i f)

/-- Where the shape of an error with a line, or the one of an error at a line without a column, gives a
diagnostic, the shape of a line number is in the line as well. It gives a diagnostic unless the first
line number cannot be used, and then the later shapes are not asked. So without the shape of an error
with a line, nothing changes but in lines whose first line number cannot be used. -/
theorem shadowed_by_line (line : String) (h : OneLine line.toList) :
    (∀ (shape : Shape) (o : Occurrence), shape = .errorLine ∨ shape = .errorAt ∧ o.column = none →
        shape.find line.toList = some o → o.diagnostic? ≠ none →
        (Shape.line.pattern.search line.toList).isSome = true ∧
          ∃ i ds, FirstLineNumber line.toList i ds ∧
            (ofLine? [.line] line = none ↔ NamesNoLine ds) ∧
            (ofLine? [.line] line ≠ none →
              ofLine? Shape.all line = ofLine? [.located, .line] line)) ∧
      (ofLine? (Shape.all.erase .errorLine) line ≠ ofLine? Shape.all line →
        ∃ i ds, FirstLineNumber line.toList i ds ∧ NamesNoLine ds) := by
  constructor
  · intro shape o hshape hfind ho
    obtain ⟨i, f, hf, hiff⟩ := exists_firstOccurs_line h hshape hfind ho
    refine ⟨isSome_search h hf, i, f.line, hf.firstLineNumber, hiff, fun hsome => ?_⟩
    have hbefore : ofLine? [.located, .line] line ≠ none := fun hnone =>
      hsome (ofLine?_singleton_of_eq_none hnone (by decide))
    have hall : Shape.all = [.located, .line] ++ [.errorAt, .called, .errorLine] := rfl
    rw [hall, ofLine?_append]
    exact Option.or_of_isSome (Option.isSome_iff_ne_none.2 hbefore)
  · intro hne
    have hall : Shape.all = Shape.all.erase .errorLine ++ [.errorLine] := rfl
    have hor := ofLine?_append (Shape.all.erase .errorLine) [.errorLine] line
    rw [← hall] at hor
    -- the other shapes give nothing, so this one does
    have hnone : ofLine? (Shape.all.erase .errorLine) line = none := by
      by_contra hsome
      exact hne (hor.trans (Option.or_of_isSome (Option.isSome_iff_ne_none.2 hsome))).symm
    rw [hnone, Option.none_or, ofLine?_singleton] at hor
    rw [hnone, hor] at hne
    obtain ⟨d, hd⟩ := Option.ne_none_iff_exists'.1 hne.symm
    obtain ⟨o, hfind, ho⟩ := Option.bind_eq_some_iff.1 hd
    obtain ⟨i, f, hf, hiff⟩ := exists_firstOccurs_line h (.inl rfl) hfind
      (by rw [ho]; exact Option.some_ne_none d)
    exact ⟨i, f.line, hf.firstLineNumber,
      hiff.1 (ofLine?_singleton_of_eq_none hnone (by decide))⟩

/-- The zeroth line before an error in the fifth one. -/
theorem shadowed_by_zeroth_line :
    let line := "line 0: see error: line 5: x"
    OneLine line.toList ∧
      (∃ o, Shape.errorLine.find line.toList = some o ∧ o.diagnostic? ≠ none ∧
        (Shape.line.pattern.search line.toList).isSome = true ∧
          ∃ i ds, FirstLineNumber line.toList i ds ∧
            (ofLine? [.line] line = none ↔ NamesNoLine ds)) ∧
      ofLine? Shape.all line =
        some { line := 4, column := 0, severity := .error, message := "x" } ∧
      ofLine? (Shape.all.erase .errorLine) line = none ∧
      ∃ i ds, FirstLineNumber line.toList i ds ∧ NamesNoLine ds := by
  intro line
  have hone : OneLine line.toList := by
    unfold OneLine
    decide
  have hfind : Shape.errorLine.find line.toList = some { line := ['5'], message := ['x'] } := by
    decide
  have ho : Occurrence.diagnostic? { line := ['5'], message := ['x'] } ≠ none := by decide
  have hall : ofLine? Shape.all line =
      some { line := 4, column := 0, severity := .error, message := "x" } := by decide +kernel
  have herase : ofLine? (Shape.all.erase .errorLine) line = none := by decide +kernel
  obtain ⟨hshape, herased⟩ := shadowed_by_line line hone
  obtain ⟨hsearch, i, ds, hds, hiff, -⟩ := hshape .errorLine _ (.inl rfl) hfind ho
  refine ⟨hone, ⟨_, hfind, ho, hsearch, i, ds, hds, hiff⟩, hall, herase, herased ?_⟩
  rw [hall, herase]
  exact nofun

end Workbench.Diagnostic
