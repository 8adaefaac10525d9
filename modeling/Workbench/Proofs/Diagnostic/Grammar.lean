import Workbench.Proofs.Diagnostic.Pattern

/-!
# The grammar of compiler messages

What the shapes say, without a search: a text is written in a shape or it is not, and the first place
in a line from which it is written in the shape tells everything.

* `Writes shape s f` : the text `s`, to the end of its line, is written in the shape with the fields
  `f`;
* `OccursAt shape s i f` : the line `s` is written in the shape from the index `i` on. The shapes
  with a name before them begin at the separator, which does not follow another one;
* `Fields.diagnostic?` : the diagnostic of fields, if they can be used;
* `ofLine?_eq_first_occurrence` : reading a line in one shape, searching it for the pattern of the
  shape and reading its first occurrence are the same.
-/

namespace Workbench.Diagnostic
open Text (isBlank isDigit trim)

/-! ## Shapes without a reader -/

/-- The fields of a message as they are written. -/
structure Fields where
  line : List Char
  column : Option (List Char) := none
  word : Option (List Char) := none
  rest : List Char

/-- The diagnostic of fields. There is none where a number is too long, where the line is the zeroth
or where the message is blank. -/
def Fields.diagnostic? (f : Fields) : Option Diagnostic :=
  if Text.value f.line = 0 ∨ Number.digitLimit < f.line.length ∨
      (∃ column ∈ f.column, Number.digitLimit < column.length) ∨ f.rest.all isBlank = true then
    none
  else
    some
      { line := Text.value f.line - 1
        column := (f.column.map Text.value).getD 0
        severity := severityOf f.word
        message := String.ofList (trim f.rest) }

/-- The text is written in the shape, with these fields. The rest of the line is not empty. -/
inductive Writes : Shape → List Char → Fields → Prop
  | located {line column gap word rest} (hline : Digits line) (hcolumn : Digits column)
      (hgap : Blanks gap) (hword : IsSeverity word) (hrest : rest ≠ []) :
      Writes .located (':' :: (line ++ ':' :: (column ++ ':' :: (gap ++ (word ++ ':' :: rest)))))
        { line, column := some column, word := some word, rest }
  | line {x line rest} (hline : IsLineNumber x line) (hrest : rest ≠ []) :
      Writes .line (x ++ ':' :: rest) { line, rest }
  | errorAt {w gap at_ gap' x line rest} (hw : Spells "error".toList w) (hgap : Gap gap)
      (hat : Spells "at".toList at_) (hgap' : Gap gap') (hline : IsLineNumber x line)
      (hrest : rest ≠ []) :
      Writes .errorAt (w ++ (gap ++ (at_ ++ (gap' ++ (x ++ ':' :: rest))))) { line, rest }
  | errorAtColumn {w gap at_ gap' x line y column rest} (hw : Spells "error".toList w)
      (hgap : Gap gap) (hat : Spells "at".toList at_) (hgap' : Gap gap') (hline : IsLineNumber x line)
      (hcolumn : IsColumnNumber y column) (hrest : rest ≠ []) :
      Writes .errorAt (w ++ (gap ++ (at_ ++ (gap' ++ (x ++ (y ++ ':' :: rest))))))
        { line, column := some column, rest }
  | called {line gap word rest} (hline : Digits line) (hgap : Blanks gap) (hword : IsSeverity word)
      (hrest : rest ≠ []) :
      Writes .called ('(' :: (line ++ ')' :: ':' :: (gap ++ (word ++ ':' :: rest))))
        { line, word := some word, rest }
  | errorLine {w gap x line rest} (hw : Spells "error".toList w) (hgap : Blanks gap)
      (hline : IsLineNumber x line) (hrest : rest ≠ []) :
      Writes .errorLine (w ++ ':' :: (gap ++ (x ++ ':' :: rest))) { line, rest }

/-- The separator at which a shape begins if it has a name before it. -/
def Shape.separator? : Shape → Option Char
  | .located => some ':'
  | .called => some '('
  | _ => none

/-- The line is written in the shape from an index on. -/
structure Shape.OccursAt (shape : Shape) (s : List Char) (i : Nat) (f : Fields) : Prop where
  writes : Writes shape (s.drop i) f
  named : ∀ separator ∈ shape.separator?, ∃ j c, i = j + 1 ∧ s[j]? = some c ∧ c ≠ separator

/-- The line is written in the shape from an index on, and from none before it. -/
def Shape.FirstOccurs (shape : Shape) (s : List Char) (i : Nat) (f : Fields) : Prop :=
  shape.OccursAt s i f ∧ ∀ j < i, ∀ g, ¬ shape.OccursAt s j g

/-! ## The readers follow the grammar -/

/-- What is read of fields. -/
def Fields.occurrence (f : Fields) : Occurrence where
  line := f.line
  column := f.column
  severity := severityOf f.word
  message := messageOf f.rest

/-- What is read of a shape from the beginning of a text on, the name before it left out. -/
def Shape.readHere : Shape → List Char → Option Occurrence
  | .located, s => (afterChar ':' s).bind readLocated
  | .line, s => readLine s
  | .errorAt, s => readErrorAt s
  | .called, s => (afterChar '(' s).bind readCalled
  | .errorLine, s => readErrorLine s

theorem judged?_eq_some {s m : List Char} {severity : Severity} (h : OneLine s) :
    judged? s = some (severity, m) ↔
      ∃ gap word rest, Blanks gap ∧ IsSeverity word ∧ rest ≠ [] ∧
        s = gap ++ (word ++ ':' :: rest) ∧ severity = severityOf (some word) ∧ m = messageOf rest := by
  constructor
  · intro hj
    simp only [judged?, Option.bind_eq_bind, Option.bind_eq_some_iff, Option.pure_def,
      Option.some.injEq, Prod.mk.injEq, Prod.exists] at hj
    obtain ⟨_, s₁, h₁, s₂, h₂, _, h₃, rfl, rfl⟩ := hj
    obtain ⟨gap, hgap, hs, -⟩ := exists_afterBlanks s
    obtain ⟨word, hword, hs₁, rfl⟩ := severity?_eq_some.1 h₁
    rw [afterChar_eq_some] at h₂
    subst h₂
    rw [hs₁] at hs
    have ho : OneLine s₂ := fun hm => h (by rw [hs]; simp [hm])
    obtain ⟨hne, rfl⟩ := (message?_eq_some ho).1 h₃
    exact ⟨gap, word, s₂, hgap, hword, hne, hs, rfl, rfl⟩
  · rintro ⟨gap, word, rest, hgap, hword, hne, rfl, rfl, rfl⟩
    have ho : OneLine rest := fun hm => h (by simp [hm])
    simp only [judged?, afterBlanks_append hgap (hword.stops_append _), severity?_append hword,
      Option.bind_eq_bind, Option.bind_some, afterChar_cons,
      (message?_eq_some ho).2 ⟨hne, rfl⟩, Option.pure_def]

theorem stops_colon_isDigit (s : List Char) : Text.Stops isDigit (':' :: s) :=
  Text.stops_cons.2 (by decide)

/-- The text after the number of a line is not a column. -/
theorem columnNumber?_colon (s : List Char) : columnNumber? (':' :: s) = none := rfl

theorem readLine_eq_some {s : List Char} {o : Occurrence} (h : OneLine s) :
    readLine s = some o ↔ ∃ x line rest, IsLineNumber x line ∧ rest ≠ [] ∧
      s = x ++ ':' :: rest ∧ o = { line, message := messageOf rest } := by
  constructor
  · intro hl
    simp only [readLine, Option.bind_eq_bind, Option.bind_eq_some_iff, Option.pure_def,
      Option.some.injEq, Prod.exists] at hl
    obtain ⟨line, s₁, h₁, s₂, h₂, m, h₃, rfl⟩ := hl
    obtain ⟨x, hline, rfl, -⟩ := lineNumber?_eq_some.1 h₁
    rw [afterChar_eq_some] at h₂
    subst h₂
    have hm : OneLine s₂ := h.of_suffix ⟨x ++ [':'], by simp⟩
    obtain ⟨hrest, rfl⟩ := (message?_eq_some hm).1 h₃
    exact ⟨x, line, s₂, hline, hrest, rfl, rfl⟩
  · rintro ⟨x, line, rest, hline, hrest, rfl, rfl⟩
    have hm : message? rest = some (messageOf rest) :=
      (message?_eq_some (h.of_suffix ⟨x ++ [':'], by simp⟩)).2 ⟨hrest, rfl⟩
    simp only [readLine, lineNumber?_append hline (stops_colon_isDigit _), Option.bind_eq_bind,
      Option.bind_some, afterChar_cons, hm, Option.pure_def]

/-- A text that is written in a shape is read so. -/
theorem Writes.readHere {shape : Shape} {s : List Char} {f : Fields} (h : Writes shape s f)
    (ho : OneLine s) : shape.readHere s = some f.occurrence := by
  have hat_stops : ∀ {a : List Char}, Spells "at".toList a → ∀ t, Text.Stops isBlank (a ++ t) :=
    fun ha t => Spells.stops_append (a := 'a') (u := ['t']) ha (by decide) t
  cases h with
  | @located line column gap word rest hline hcolumn hgap hword hrest =>
    have hj : judged? (gap ++ (word ++ ':' :: rest)) =
        some (severityOf (some word), messageOf rest) :=
      (judged?_eq_some (ho.of_suffix ⟨':' :: (line ++ ':' :: (column ++ [':'])), by simp⟩)).2
        ⟨gap, word, rest, hgap, hword, hrest, rfl, rfl, rfl⟩
    simp only [Shape.readHere, afterChar_cons, Option.bind_some, readLocated, Option.bind_eq_bind,
      digits?_append hline (stops_colon_isDigit _), digits?_append hcolumn (stops_colon_isDigit _),
      hj]
    rfl
  | @line x line rest hline hrest =>
    exact (readLine_eq_some ho).2 ⟨x, line, rest, hline, hrest, rfl, rfl⟩
  | @errorAt w gap at_ gap' x line rest hw hgap hat hgap' hline hrest =>
    have hm : message? rest = some (messageOf rest) :=
      (message?_eq_some (ho.of_suffix ⟨w ++ gap ++ at_ ++ gap' ++ x ++ [':'], by simp⟩)).2
        ⟨hrest, rfl⟩
    simp only [Shape.readHere, readErrorAt, Option.bind_eq_bind, Option.bind_some,
      afterWord_append hw, afterGap_append hgap (hat_stops hat _), afterWord_append hat,
      afterGap_append hgap' (hline.stops_append _), lineNumber?_append hline (stops_colon_isDigit _),
      columnNumber?_colon, afterChar_cons, hm]
    rfl
  | @errorAtColumn w gap at_ gap' x line y column rest hw hgap hat hgap' hline hcolumn hrest =>
    have hm : message? rest = some (messageOf rest) :=
      (message?_eq_some (ho.of_suffix ⟨w ++ gap ++ at_ ++ gap' ++ x ++ y ++ [':'], by simp⟩)).2
        ⟨hrest, rfl⟩
    simp only [Shape.readHere, readErrorAt, Option.bind_eq_bind, Option.bind_some,
      afterWord_append hw, afterGap_append hgap (hat_stops hat _), afterWord_append hat,
      afterGap_append hgap' (hline.stops_append _),
      lineNumber?_append hline (hcolumn.stops_append _),
      columnNumber?_append hcolumn (stops_colon_isDigit _), afterChar_cons, hm]
    rfl
  | @called line gap word rest hline hgap hword hrest =>
    have hj : judged? (gap ++ (word ++ ':' :: rest)) =
        some (severityOf (some word), messageOf rest) :=
      (judged?_eq_some (ho.of_suffix ⟨'(' :: (line ++ [')', ':']), by simp⟩)).2
        ⟨gap, word, rest, hgap, hword, hrest, rfl, rfl, rfl⟩
    have hstop : Text.Stops isDigit (')' :: ':' :: (gap ++ (word ++ ':' :: rest))) :=
      Text.stops_cons.2 (by decide)
    simp only [Shape.readHere, afterChar_cons, Option.bind_some, readCalled, Option.bind_eq_bind,
      digits?_append hline hstop, hj]
    rfl
  | @errorLine w gap x line rest hw hgap hline hrest =>
    have hl : readLine (x ++ ':' :: rest) = some { line, message := messageOf rest } :=
      (readLine_eq_some (ho.of_suffix ⟨w ++ ':' :: gap, by simp⟩)).2
        ⟨x, line, rest, hline, hrest, rfl, rfl⟩
    simp only [Shape.readHere, readErrorLine, Option.bind_eq_bind, Option.bind_some,
      afterWord_append hw, afterChar_cons, afterBlanks_append hgap (hline.stops_append _), hl]
    rfl

/-- A place in the line may have a column or not. -/
theorem exists_writes_errorAt {s : List Char} {o : Occurrence} (ho : OneLine s)
    (h : readErrorAt s = some o) : ∃ f, Writes .errorAt s f ∧ o = f.occurrence := by
  simp only [readErrorAt, Option.bind_eq_bind, Option.bind_eq_some_iff,
    Prod.exists] at h
  obtain ⟨s₁, h₁, s₂, h₂, s₃, h₃, s₄, h₄, line, s₅, h₅, h⟩ := h
  obtain ⟨w, hw, rfl⟩ := afterWord_eq_some.1 h₁
  obtain ⟨gap, hgap, rfl, -⟩ := afterGap_eq_some.1 h₂
  obtain ⟨at_, hat, rfl⟩ := afterWord_eq_some.1 h₃
  obtain ⟨gap', hgap', rfl, -⟩ := afterGap_eq_some.1 h₄
  obtain ⟨x, hline, rfl, -⟩ := lineNumber?_eq_some.1 h₅
  cases hcolumn : columnNumber? s₅ with
  | none =>
    simp only [hcolumn, Option.pure_def, Option.some.injEq] at h
    obtain ⟨s₆, h₆, m, h₇, rfl⟩ := h
    rw [afterChar_eq_some] at h₆
    subst h₆
    have hm : OneLine s₆ := ho.of_suffix ⟨w ++ gap ++ at_ ++ gap' ++ x ++ [':'], by simp⟩
    obtain ⟨hrest, rfl⟩ := (message?_eq_some hm).1 h₇
    exact ⟨_, .errorAt hw hgap hat hgap' hline hrest, rfl⟩
  | some found =>
    obtain ⟨column, s₆⟩ := found
    simp only [hcolumn, Option.pure_def, Option.some.injEq] at h
    obtain ⟨s₇, h₆, m, h₇, rfl⟩ := h
    obtain ⟨y, hy, rfl, -⟩ := columnNumber?_eq_some.1 hcolumn
    rw [afterChar_eq_some] at h₆
    subst h₆
    have hm : OneLine s₇ := ho.of_suffix ⟨w ++ gap ++ at_ ++ gap' ++ x ++ y ++ [':'], by simp⟩
    obtain ⟨hrest, rfl⟩ := (message?_eq_some hm).1 h₇
    exact ⟨_, .errorAtColumn hw hgap hat hgap' hline hy hrest, rfl⟩

/-- A text that is read in a shape is written so. -/
theorem exists_writes {shape : Shape} {s : List Char} {o : Occurrence} (ho : OneLine s)
    (h : shape.readHere s = some o) : ∃ f, Writes shape s f ∧ o = f.occurrence := by
  cases shape with
  | located =>
    simp only [Shape.readHere, readLocated, Option.bind_eq_bind, Option.bind_eq_some_iff,
      Option.pure_def, Option.some.injEq, Prod.exists] at h
    obtain ⟨s₁, h₁, line, s₂, h₂, s₃, h₃, column, s₄, h₄, s₅, h₅, severity, m, h₆, rfl⟩ := h
    obtain ⟨hline, rfl, -⟩ := digits?_eq_some.1 h₂
    obtain ⟨hcolumn, rfl, -⟩ := digits?_eq_some.1 h₄
    rw [afterChar_eq_some] at h₁ h₃ h₅
    subst h₁ h₃ h₅
    have hj : OneLine s₅ := ho.of_suffix ⟨':' :: (line ++ ':' :: (column ++ [':'])), by simp⟩
    obtain ⟨gap, word, rest, hgap, hword, hrest, rfl, rfl, rfl⟩ := (judged?_eq_some hj).1 h₆
    exact ⟨_, .located hline hcolumn hgap hword hrest, rfl⟩
  | line =>
    obtain ⟨x, line, rest, hline, hrest, rfl, rfl⟩ := (readLine_eq_some ho).1 h
    exact ⟨_, .line hline hrest, rfl⟩
  | errorAt => exact exists_writes_errorAt ho h
  | called =>
    simp only [Shape.readHere, readCalled, Option.bind_eq_bind, Option.bind_eq_some_iff,
      Option.pure_def, Option.some.injEq, Prod.exists] at h
    obtain ⟨s₁, h₁, line, s₂, h₂, s₃, h₃, s₄, h₄, severity, m, h₅, rfl⟩ := h
    obtain ⟨hline, rfl, -⟩ := digits?_eq_some.1 h₂
    rw [afterChar_eq_some] at h₁ h₃ h₄
    subst h₁ h₃ h₄
    have hj : OneLine s₄ := ho.of_suffix ⟨'(' :: (line ++ [')', ':']), by simp⟩
    obtain ⟨gap, word, rest, hgap, hword, hrest, rfl, rfl, rfl⟩ := (judged?_eq_some hj).1 h₅
    exact ⟨_, .called hline hgap hword hrest, rfl⟩
  | errorLine =>
    simp only [Shape.readHere, readErrorLine, Option.bind_eq_bind, Option.bind_eq_some_iff] at h
    obtain ⟨s₁, h₁, s₂, h₂, h₃⟩ := h
    obtain ⟨w, hw, rfl⟩ := afterWord_eq_some.1 h₁
    rw [afterChar_eq_some] at h₂
    subst h₂
    obtain ⟨gap, hgap, hs, -⟩ := exists_afterBlanks s₂
    have hl : OneLine (afterBlanks s₂) :=
      ho.of_suffix ⟨w ++ ':' :: gap, by rw [List.append_assoc, List.cons_append, ← hs]⟩
    obtain ⟨x, line, rest, hline, hrest, hx, rfl⟩ := (readLine_eq_some hl).1 h₃
    rw [hx] at hs
    subst hs
    exact ⟨_, .errorLine hw hgap hline hrest, rfl⟩

theorem readHere_eq_some {shape : Shape} {s : List Char} {o : Occurrence} (ho : OneLine s) :
    shape.readHere s = some o ↔ ∃ f, Writes shape s f ∧ o = f.occurrence := by
  constructor
  · exact exists_writes ho
  · rintro ⟨f, hf, rfl⟩
    exact hf.readHere ho

/-! ## The first place -/

/-- The first of a row of results, none where there is none. -/
def IsFirst {α : Type} (results : Nat → Option α) (found : Option α) : Prop :=
  (found = none ∧ ∀ i, results i = none) ∨
    ∃ i, found = results i ∧ (results i).isSome = true ∧ ∀ j < i, results j = none

section IsFirst
variable {α : Type} {results : Nat → Option α} {found : Option α}

theorem isFirst_of_some {a : α} (h : results 0 = some a) : IsFirst results (some a) :=
  Or.inr ⟨0, h.symm, by rw [h]; rfl, fun j hj => absurd hj (Nat.not_lt_zero j)⟩

theorem isFirst_of_none (h : results 0 = none) (hfound : IsFirst (fun i => results (i + 1)) found) :
    IsFirst results found := by
  rcases hfound with ⟨rfl, hnone⟩ | ⟨i, hi, hsome, hnone⟩
  · refine Or.inl ⟨rfl, fun i => ?_⟩
    cases i with
    | zero => exact h
    | succ i => exact hnone i
  · refine Or.inr ⟨i + 1, hi, hsome, fun j hj => ?_⟩
    cases j with
    | zero => exact h
    | succ j => exact hnone j (Nat.lt_of_succ_lt_succ hj)

end IsFirst

theorem isFirst_firstAt {read : List Char → Option Occurrence} (s : List Char) :
    IsFirst (fun i => read (s.drop i)) (firstAt read s) := by
  induction s with
  | nil =>
    rw [firstAt]
    cases h : read [] with
    | none => exact Or.inl ⟨rfl, fun i => (congrArg read List.drop_nil).trans h⟩
    | some o => exact isFirst_of_some h
  | cons c s ih =>
    rw [firstAt]
    cases h : read (c :: s) with
    | none => exact isFirst_of_none h ih
    | some o => exact isFirst_of_some h

/-- Does a name stand before an index? `before` says whether one stands before the whole text. -/
def endsName (separator : Char) (before : Bool) (s : List Char) : Nat → Bool
  | 0 => before
  | i + 1 => s[i]?.any (· ≠ separator)

theorem endsName_cons (separator : Char) (before : Bool) (c : Char) (s : List Char) (i : Nat) :
    endsName separator before (c :: s) (i + 1) = endsName separator (c ≠ separator) s i := by
  cases i with
  | zero => simp [endsName]
  | succ i => rfl

/-- What is read from a separator on that follows a name. -/
def readAfterName (separator : Char) (read : List Char → Option Occurrence) (before : Bool)
    (s : List Char) (i : Nat) : Option Occurrence :=
  if endsName separator before s i then (afterChar separator (s.drop i)).bind read else none

theorem readAfterName_cons (separator : Char) (read : List Char → Option Occurrence) (before : Bool)
    (c : Char) (s : List Char) (i : Nat) :
    readAfterName separator read before (c :: s) (i + 1) =
      readAfterName separator read (c ≠ separator) s i := by
  rw [readAfterName, endsName_cons, List.drop_succ_cons, readAfterName]

theorem isFirst_firstAfter {separator : Char} {read : List Char → Option Occurrence}
    (before : Bool) (s : List Char) :
    IsFirst (readAfterName separator read before s) (firstAfter separator read before s) := by
  induction s generalizing before with
  | nil =>
    refine Or.inl ⟨rfl, fun i => ?_⟩
    rw [readAfterName, List.drop_nil]
    exact ite_self none
  | cons c s ih =>
    have hrest : IsFirst (fun i => readAfterName separator read before (c :: s) (i + 1))
        (firstAfter separator read (c ≠ separator) s) := by
      simp only [readAfterName_cons]
      exact ih (c ≠ separator)
    have hzero : readAfterName separator read before (c :: s) 0 =
        if before && c = separator then read s else none := by
      by_cases hc : c = separator <;> cases before <;> simp [readAfterName, endsName, afterChar, hc]
    rw [firstAfter]
    by_cases hc : c = separator
    · rw [if_pos hc]
      rw [decide_eq_false (not_not.2 hc)] at hrest
      cases h : if before then read s else none with
      | none => exact isFirst_of_none (hzero.trans (by simpa [hc] using h)) hrest
      | some o => exact isFirst_of_some (hzero.trans (by simpa [hc] using h))
    · rw [if_neg hc]
      rw [decide_eq_true hc] at hrest
      exact isFirst_of_none (hzero.trans (by simp [hc])) hrest

/-- What is read of a shape from an index of a line on. -/
def Shape.readFrom (shape : Shape) (s : List Char) (i : Nat) : Option Occurrence :=
  if shape.separator?.all fun separator => endsName separator false s i then
    shape.readHere (s.drop i)
  else none

theorem isFirst_find (shape : Shape) (s : List Char) :
    IsFirst (shape.readFrom s) (shape.find s) := by
  cases shape with
  | located => exact isFirst_firstAfter false s
  | line => exact isFirst_firstAt s
  | errorAt => exact isFirst_firstAt s
  | called => exact isFirst_firstAfter false s
  | errorLine => exact isFirst_firstAt s

theorem endsName_eq_true {separator : Char} {s : List Char} {i : Nat} :
    endsName separator false s i = true ↔ ∃ j c, i = j + 1 ∧ s[j]? = some c ∧ c ≠ separator := by
  cases i with
  | zero => simp [endsName]
  | succ i => simp [endsName, Option.any_eq_true]

theorem readFrom_eq_some {shape : Shape} {s : List Char} {i : Nat} {o : Occurrence}
    (ho : OneLine s) :
    shape.readFrom s i = some o ↔ ∃ f, shape.OccursAt s i f ∧ o = f.occurrence := by
  unfold Shape.readFrom
  have hdrop : OneLine (s.drop i) := ho.of_suffix (List.drop_suffix i s)
  split
  · next hn =>
    rw [readHere_eq_some hdrop]
    have hnamed : ∀ separator ∈ shape.separator?,
        ∃ j c, i = j + 1 ∧ s[j]? = some c ∧ c ≠ separator := by
      intro separator hs
      rw [Option.all_eq_true] at hn
      exact endsName_eq_true.1 (hn separator hs)
    constructor
    · rintro ⟨f, hf, rfl⟩
      exact ⟨f, ⟨hf, hnamed⟩, rfl⟩
    · rintro ⟨f, hf, rfl⟩
      exact ⟨f, hf.writes, rfl⟩
  · next hn =>
    constructor
    · intro h
      exact absurd h (by simp)
    · rintro ⟨f, hf, -⟩
      refine absurd ?_ hn
      rw [Option.all_eq_true]
      exact fun separator hs => endsName_eq_true.2 (hf.named separator hs)

theorem readFrom_eq_none {shape : Shape} {s : List Char} {i : Nat} (ho : OneLine s) :
    shape.readFrom s i = none ↔ ∀ f, ¬ shape.OccursAt s i f := by
  rw [Option.eq_none_iff_forall_ne_some]
  constructor
  · intro h f hf
    exact h f.occurrence ((readFrom_eq_some ho).2 ⟨f, hf, rfl⟩)
  · intro h o hr
    obtain ⟨f, hf, -⟩ := (readFrom_eq_some ho).1 hr
    exact h f hf

/-! ## The diagnostic -/

theorem Writes.rest_suffix {shape : Shape} {s : List Char} {f : Fields} (h : Writes shape s f) :
    f.rest <:+ s := by
  cases h with
  | @located line column gap word rest =>
    exact ⟨':' :: (line ++ ':' :: (column ++ ':' :: (gap ++ (word ++ [':'])))), by simp⟩
  | @line x line rest => exact ⟨x ++ [':'], by simp⟩
  | @errorAt w gap at_ gap' x line rest =>
    exact ⟨w ++ gap ++ at_ ++ gap' ++ x ++ [':'], by simp⟩
  | @errorAtColumn w gap at_ gap' x line y column rest =>
    exact ⟨w ++ gap ++ at_ ++ gap' ++ x ++ y ++ [':'], by simp⟩
  | @called line gap word rest =>
    exact ⟨'(' :: (line ++ ')' :: ':' :: (gap ++ (word ++ [':']))), by simp⟩
  | @errorLine w gap x line rest => exact ⟨w ++ ':' :: (gap ++ (x ++ [':'])), by simp⟩

theorem Shape.OccursAt.rest_suffix {shape : Shape} {s : List Char} {i : Nat} {f : Fields}
    (h : shape.OccursAt s i f) : f.rest <:+ s :=
  h.writes.rest_suffix.trans (List.drop_suffix i s)

theorem read?_eq_none {ds : List Char} (h : Number.digitLimit < ds.length) :
    Number.read? ds = none := if_neg (Nat.not_le.2 h)

/-- The fields and what is read of them have the same diagnostic. -/
theorem Fields.diagnostic?_occurrence {f : Fields} (h : OneLine f.rest) :
    f.occurrence.diagnostic? = f.diagnostic? := by
  unfold Occurrence.diagnostic? Fields.diagnostic?
  simp only [Fields.occurrence, trim_messageOf h, List.all_eq_true, ← Text.trim_eq_nil_iff]
  by_cases hlong : Number.digitLimit < f.line.length
  · rw [read?_eq_none hlong, if_pos (Or.inr (Or.inl hlong))]
  rw [Number.read?_eq_some (Nat.not_lt.1 hlong)]
  cases hvalue : Text.value f.line with
  | zero => rw [if_pos (Or.inl rfl)]
  | succ n =>
    cases hcolumn : f.column with
    | none => by_cases hm : trim f.rest = [] <;> simp [hm, hlong]
    | some column =>
      dsimp only
      by_cases hlen : Number.digitLimit < column.length
      · rw [read?_eq_none hlen, if_pos (Or.inr (Or.inr (Or.inl ⟨column, rfl, hlen⟩)))]
      · rw [Number.read?_eq_some (Nat.not_lt.1 hlen)]
        by_cases hm : trim f.rest = [] <;> simp [hm, hlong, hlen]

/-! ## Lines -/

theorem Shape.FirstOccurs.index_unique {shape : Shape} {s : List Char} {i j : Nat} {f g : Fields}
    (hf : shape.FirstOccurs s i f) (hg : shape.FirstOccurs s j g) : i = j := by
  rcases Nat.lt_trichotomy i j with hlt | heq | hlt
  · exact absurd hf.1 (hg.2 i hlt f)
  · exact heq
  · exact absurd hg.1 (hf.2 j hlt g)

/-- A shape occurs first somewhere in a line, or it does not occur there. -/
theorem find_cases (shape : Shape) {s : List Char} (h : OneLine s) :
    (∃ i f, shape.FirstOccurs s i f ∧ shape.find s = some f.occurrence) ∨
      (∀ i f, ¬ shape.OccursAt s i f) ∧ shape.find s = none := by
  rcases isFirst_find shape s with ⟨hnone, hall⟩ | ⟨i, hfind, hsome, hbefore⟩
  · exact Or.inr ⟨fun i => (readFrom_eq_none h).1 (hall i), hnone⟩
  · obtain ⟨o, ho⟩ := Option.isSome_iff_exists.1 hsome
    obtain ⟨f, hf, rfl⟩ := (readFrom_eq_some h).1 ho
    exact Or.inl ⟨i, f, ⟨hf, fun j hj => (readFrom_eq_none h).1 (hbefore j hj)⟩, hfind.trans ho⟩

theorem find_eq_none {shape : Shape} {s : List Char} (h : OneLine s)
    (hno : ∀ i f, ¬ shape.OccursAt s i f) : shape.find s = none := by
  rcases find_cases shape h with ⟨i, f, hf, -⟩ | ⟨-, hnone⟩
  · exact absurd hf.1 (hno i f)
  · exact hnone

/-- The first occurrence gives the diagnostic, whichever way its fields are told apart. -/
theorem find_diagnostic? {shape : Shape} {s : List Char} {i : Nat} {f : Fields} (h : OneLine s)
    (hf : shape.FirstOccurs s i f) :
    (shape.find s).bind Occurrence.diagnostic? = f.diagnostic? := by
  have hrest : OneLine f.rest := h.of_suffix hf.1.rest_suffix
  rcases isFirst_find shape s with ⟨-, hall⟩ | ⟨j, hfind, hsome, hbefore⟩
  · exact absurd hf.1 ((readFrom_eq_none h).1 (hall i) f)
  · obtain ⟨o, ho⟩ := Option.isSome_iff_exists.1 hsome
    obtain ⟨g, hg, -⟩ := (readFrom_eq_some h).1 ho
    have hij : i = j :=
      hf.index_unique ⟨hg, fun k hk => (readFrom_eq_none h).1 (hbefore k hk)⟩
    subst hij
    rw [hfind, (readFrom_eq_some h).2 ⟨f, hf.1, rfl⟩, Option.bind_some,
      Fields.diagnostic?_occurrence hrest]

/-- A line that is read in one shape only gives the first reading of its pattern that a search
finds, and it gives the fields of its first occurrence. A later occurrence does not count, whether
or not the first one can be used. -/
theorem ofLine?_eq_first_occurrence (shape : Shape) (line : String) (h : OneLine line.toList) :
    ofLine? [shape] line =
        (shape.pattern.search line.toList).bind (fun r => r.occurrence.diagnostic?) ∧
      (∀ i f, shape.FirstOccurs line.toList i f → ofLine? [shape] line = f.diagnostic?) ∧
      ((∃ i f, shape.FirstOccurs line.toList i f) ∨
        (∀ i f, ¬ shape.OccursAt line.toList i f) ∧ ofLine? [shape] line = none) := by
  have hof : ofLine? [shape] line = (shape.find line.toList).bind Occurrence.diagnostic? := by
    rw [ofLine?, List.findSome?_singleton]
  rw [hof]
  refine ⟨?_, fun i f hf => find_diagnostic? h hf, ?_⟩
  · rw [find_eq_search, Option.bind_map]
    rfl
  · rcases find_cases shape h with ⟨i, f, hf, -⟩ | ⟨hno, hnone⟩
    · exact Or.inl ⟨i, f, hf⟩
    · refine Or.inr ⟨hno, ?_⟩
      rw [hnone]
      rfl

/-- The zeroth line is no line, and what is behind it is not looked for. -/
theorem ofLine?_zeroth_line :
    OneLine "a:0:1: error: b:2:3: error: c".toList ∧
      ofLine? [.located] "a:0:1: error: b:2:3: error: c" = none := by
  have h : OneLine "a:0:1: error: b:2:3: error: c".toList := by
    unfold OneLine
    decide
  have hw : Writes .located (':' :: (['0'] ++ ':' :: (['1'] ++ ':' :: ([' '] ++ ("error".toList ++
      ':' :: " b:2:3: error: c".toList)))))
      { line := ['0'], column := some ['1'], word := some "error".toList
        rest := " b:2:3: error: c".toList } :=
    .located ⟨by decide, List.all_eq_true.1 (by decide)⟩
      ⟨by decide, List.all_eq_true.1 (by decide)⟩ (List.all_eq_true.1 (by decide))
      (Or.inl (spells_of_map_toLower (by decide))) (by decide)
  refine ⟨h, (ofLine?_eq_first_occurrence .located _ h).2.1 1 _ ⟨⟨hw, ?_⟩, ?_⟩⟩
  · intro separator hs
    obtain rfl : ':' = separator := Option.some.inj hs
    exact ⟨0, 'a', rfl, rfl, by decide⟩
  · -- a name is missing at the beginning of the line
    intro j hj g hg
    obtain ⟨k, -, hk, -⟩ := hg.named ':' rfl
    omega

end Workbench.Diagnostic
