import Workbench.Diagnostic.Extract
import Workbench.Proofs.Diagnostic.Head
import Workbench.Proofs.Text.Lines

/-!
# Where a diagnostic comes from

All that a diagnostic says stands in one line of the output:

* `NumberIn s ds` : the text `s` has the digits `ds` as a whole row of digits;
* `Writes.numberIn_line`, `Writes.numberIn_column` : the numbers of a shape are such rows;
* `ReadFrom d line o` : the diagnostic has the numbers that were found in the line, and its message is
  a part of the line without blanks around it;
* `origin_of_extract` : every diagnostic of an output is read so from a line of it.
-/

namespace Workbench.Diagnostic
open Text (isBlank isDigit trim Stops)

/-! ## Numbers in a text -/

/-- A whole row of digits within a text: it stands between two characters that are no digits. -/
structure NumberIn (s ds : List Char) : Prop where
  digits : Digits ds
  enclosed : ∃ u c d v, s = u ++ c :: (ds ++ d :: v) ∧ isDigit c = false ∧ isDigit d = false

theorem NumberIn.of_suffix {s t ds : List Char} (h : NumberIn t ds) (ht : t <:+ s) :
    NumberIn s ds := by
  obtain ⟨before, rfl⟩ := ht
  obtain ⟨u, c, d, v, rfl, hc, hd⟩ := h.enclosed
  exact ⟨h.digits, before ++ u, c, d, v, by rw [List.append_assoc], hc, hd⟩

/-- No digit is blank, so a number is a whole one behind a gap. -/
theorem numberIn_append {gap ds : List Char} {d : Char} (hgap : Gap gap) (hds : Digits ds)
    (hd : isDigit d = false) (u v : List Char) : NumberIn (u ++ (gap ++ (ds ++ d :: v))) ds := by
  refine ⟨hds, u ++ gap.dropLast, gap.getLast hgap.1, d, v, ?_, ?_, hd⟩
  · rw [List.append_assoc, List.append_cons gap.dropLast, List.dropLast_append_getLast hgap.1]
  · exact Text.isDigit_eq_false_of_isBlank (hgap.2 _ (List.getLast_mem hgap.1))

theorem IsLineNumber.numberIn {x ds : List Char} (h : IsLineNumber x ds) {d : Char}
    (hd : isDigit d = false) (v : List Char) : NumberIn (x ++ d :: v) ds := by
  obtain ⟨w, gap, -, hgap, hds, rfl⟩ := h
  rw [List.append_assoc, List.append_assoc]
  exact numberIn_append hgap hds hd w v

theorem IsColumnNumber.numberIn {x ds : List Char} (h : IsColumnNumber x ds) {d : Char}
    (hd : isDigit d = false) (v : List Char) : NumberIn (x ++ d :: v) ds := by
  obtain ⟨gap, w, gap', -, -, hgap, hds, rfl⟩ := h
  have hx := numberIn_append hgap hds hd (',' :: (gap ++ w)) v
  simpa using hx

/-- The number of the line is a whole one. -/
theorem Writes.numberIn_line {shape : Shape} {s : List Char} {f : Fields} (h : Writes shape s f) :
    NumberIn s f.line := by
  have hcolon : isDigit ':' = false := by decide
  cases h with
  | @located line column gap word rest hline =>
    exact ⟨hline, [], ':', ':', _, rfl, hcolon, hcolon⟩
  | line hline => exact hline.numberIn hcolon _
  | @errorAt w gap at_ gap' x line rest _ _ _ _ hline =>
    exact (hline.numberIn hcolon rest).of_suffix ⟨w ++ gap ++ at_ ++ gap', by simp⟩
  | @errorAtColumn w gap at_ gap' x line y column rest _ _ _ _ hline hcolumn =>
    obtain ⟨gap₁, w₁, gap₂, -, -, -, -, rfl⟩ := hcolumn
    have hnumber : NumberIn (x ++ ',' :: (gap₁ ++ (w₁ ++ (gap₂ ++ (column ++ ':' :: rest))))) line :=
      hline.numberIn (by decide) _
    exact hnumber.of_suffix ⟨w ++ gap ++ at_ ++ gap', by simp⟩
  | @called line gap word rest hline => exact ⟨hline, [], '(', ')', _, rfl, by decide, by decide⟩
  | @errorLine w gap x line rest _ _ hline =>
    exact (hline.numberIn hcolon rest).of_suffix ⟨w ++ ':' :: gap, by simp⟩

/-- So is that of the column, if there is one. -/
theorem Writes.numberIn_column {shape : Shape} {s : List Char} {f : Fields} (h : Writes shape s f)
    {ds : List Char} (hds : ds ∈ f.column) : NumberIn s ds := by
  have hcolon : isDigit ':' = false := by decide
  cases h with
  | line | errorAt | called | errorLine => exact absurd hds (Option.not_mem_none ds)
  | @located line column gap word rest _ hcolumn =>
    obtain rfl := Option.some.inj hds
    have hnumber : NumberIn (':' :: (column ++ ':' :: (gap ++ (word ++ ':' :: rest)))) column :=
      ⟨hcolumn, [], ':', ':', _, rfl, hcolon, hcolon⟩
    exact hnumber.of_suffix ⟨':' :: line, rfl⟩
  | @errorAtColumn w gap at_ gap' x line y column rest _ _ _ _ _ hcolumn =>
    obtain rfl := Option.some.inj hds
    exact (hcolumn.numberIn hcolon rest).of_suffix ⟨w ++ gap ++ at_ ++ gap' ++ x, by simp⟩

/-! ## What a diagnostic is read from -/

/-- The diagnostic says what was found in the line: its place is written in whole numbers of not too
many digits, the column being the first one where none is written, and its message is a part of the
line. -/
structure ReadFrom (d : Diagnostic) (line : List Char) (o : Occurrence) : Prop where
  line_nonneg : 0 ≤ d.line
  line_number : NumberIn line o.line
  line_length : o.line.length ≤ Number.digitLimit
  line_eq : d.line + 1 = Text.value o.line
  column_nonneg : 0 ≤ d.column
  column_number : ∀ ds ∈ o.column, NumberIn line ds
  column_length : ∀ ds ∈ o.column, ds.length ≤ Number.digitLimit
  column_eq : ∀ ds ∈ o.column, d.column = Text.value ds
  column_of_none : o.column = none → d.column = 0
  message_ne : d.message ≠ ""
  message_part : d.message.toList <:+: line
  message_oneLine : OneLine d.message.toList
  message_start : Stops isBlank d.message.toList
  message_end : Stops isBlank d.message.toList.reverse

theorem Shape.OccursAt.readFrom {shape : Shape} {s : List Char} {i : Nat} {f : Fields}
    {d : Diagnostic} (h : shape.OccursAt s i f) (hs : OneLine s) (hd : f.diagnostic? = some d) :
    ReadFrom d s f.occurrence := by
  have hsuffix := List.drop_suffix i s
  have hpart : trim f.rest <:+: s := (Text.trim_isInfix f.rest).trans h.rest_suffix.isInfix
  have hone : OneLine (trim f.rest) := fun hfeed => hs (hpart.mem hfeed)
  unfold Fields.diagnostic? at hd
  split at hd
  · exact nomatch hd
  next hgood =>
    obtain ⟨hzero, hlength, hcolumn, hrest⟩ : Text.value f.line ≠ 0 ∧
        ¬ Number.digitLimit < f.line.length ∧
        (¬ ∃ column ∈ f.column, Number.digitLimit < column.length) ∧ ¬ f.rest.all isBlank = true := by
      simpa only [not_or] using hgood
    obtain rfl := Option.some.inj hd
    have hmessage : (String.ofList (trim f.rest)).toList = trim f.rest := String.toList_ofList
    exact
      { line_nonneg := by
          dsimp only
          omega
        line_number := h.writes.numberIn_line.of_suffix hsuffix
        line_length := Nat.not_lt.1 hlength
        line_eq := Int.sub_add_cancel _ 1
        column_nonneg := Int.natCast_nonneg _
        column_number := fun ds hds => (h.writes.numberIn_column hds).of_suffix hsuffix
        column_length := fun ds hds => Nat.not_lt.1 fun hlong => hcolumn ⟨ds, hds, hlong⟩
        column_eq := by
          intro ds hds
          have hsome : f.column = some ds := hds
          dsimp only
          rw [hsome]
          rfl
        column_of_none := by
          intro hnone
          have hcolumn : f.column = none := hnone
          dsimp only
          rw [hcolumn]
          rfl
        message_ne := by
          rw [ne_eq, String.ofList_eq_empty_iff, Text.trim_eq_nil_iff, ← List.all_eq_true]
          exact hrest
        message_part := by rwa [hmessage]
        message_oneLine := by rwa [hmessage]
        message_start := by
          rw [hmessage]
          exact Text.stops_trim f.rest
        message_end := by
          rw [hmessage]
          exact Text.stops_reverse_trim f.rest }

theorem readFrom_of_ofLine? {shapes : List Shape} {line : String} {d : Diagnostic}
    (h : OneLine line.toList) (hd : ofLine? shapes line = some d) :
    ∃ shape ∈ shapes, ∃ o, shape.find line.toList = some o ∧ ReadFrom d line.toList o := by
  obtain ⟨shape, hshape, hfound⟩ := List.exists_of_findSome?_eq_some hd
  rcases find_cases shape h with ⟨i, f, hfirst, hfind⟩ | ⟨-, hnone⟩
  · rw [find_diagnostic? h hfirst] at hfound
    exact ⟨shape, hshape, f.occurrence, hfind, hfirst.1.readFrom h hfound⟩
  · rw [hnone] at hfound
    exact nomatch hfound

/-- A diagnostic of an output was read from one line of it, in one of the shapes. -/
theorem origin_of_extract {shapes : List Shape} {output : String} {d : Diagnostic}
    (h : d ∈ extract shapes output) :
    ∃ line ∈ Text.splitLines output, ∃ shape ∈ shapes, ∃ o,
      shape.find line.toList = some o ∧ ReadFrom d line.toList o := by
  obtain ⟨line, hline, hd⟩ := List.mem_filterMap.1 h
  exact ⟨line, hline, readFrom_of_ofLine? (Text.not_mem_of_mem_splitLines hline) hd⟩

/-- A number in Arabic digits, and blanks of several kinds around the message. -/
theorem origin_of_arabic_number :
    { line := 41, column := 0, severity := .warning, message := "x  y" : Diagnostic } ∈
        extract Shape.all "built\nmain(\u0664\u0662): Warning:\u3000 x  y\t\ndone" ∧
      ∃ line ∈ Text.splitLines "built\nmain(\u0664\u0662): Warning:\u3000 x  y\t\ndone",
        ∃ shape ∈ Shape.all, ∃ o, shape.find line.toList = some o ∧
          ReadFrom { line := 41, column := 0, severity := .warning, message := "x  y" }
            line.toList o := by
  have h : { line := 41, column := 0, severity := .warning, message := "x  y" : Diagnostic } ∈
      extract Shape.all "built\nmain(\u0664\u0662): Warning:\u3000 x  y\t\ndone" := by
    decide +kernel
  exact ⟨h, origin_of_extract h⟩

end Workbench.Diagnostic
