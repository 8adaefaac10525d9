import Mathlib.Data.List.Perm.Basic
import Workbench.Proofs.Diagnostic.Groups
import Workbench.Proofs.View.Rich
import Workbench.View.Source

/-!
# What the view of a source shows

* `rowTexts lines ds` : the rows of the view, each with the number of its line, the mark of its
  diagnostics and the line (`plain_source`);
* `place? line d` : what is underlined of a line for a diagnostic, counted from its first character;
* `sourceStart lines ds i` : where a line begins in the view;
* `source_layout` : the rows, and that the underlines of a line stay in its own part of its row. A
  diagnostic about no line of the source changes nothing.
-/

namespace Workbench.View

open Diagnostic (forLine)
open Rich (visible movesCursor seen)
open StyledText (Spanned)

/-! ## Rows -/

/-- The mark of a line, with a space after it: that of an error if there is one. -/
def markText (ds : List Diagnostic) (line : Int) : List Char :=
  if ∃ d ∈ ds, d.line = line ∧ d.severity = .error then ['●', ' ']
  else if ∃ d ∈ ds, d.line = line then ['▲', ' ']
  else [' ', ' ']

/-- What stands before a line in its row. Its number takes as much room as the greatest one. -/
def gutterText (lines : List String) (ds : List Diagnostic) (i : Nat) : List Char :=
  List.leftpad (Nat.toDigits 10 lines.length).length ' ' (Nat.toDigits 10 (i + 1)) ++
    ' ' :: markText ds i

/-- The rows of the view. -/
def rowTexts (lines : List String) (ds : List Diagnostic) : List (List Char) :=
  lines.mapIdx fun i line => gutterText lines ds i ++ visible line

theorem length_rowTexts (lines : List String) (ds : List Diagnostic) :
    (rowTexts lines ds).length = lines.length := List.length_mapIdx

theorem toList_toString (n : Nat) : (toString n).toList = Nat.toDigits 10 n := Nat.toList_repr

theorem numberWidth_eq (lines : List String) :
    numberWidth lines = (Nat.toDigits 10 lines.length).length := by
  rw [numberWidth, ← String.length_toList, toList_toString]

theorem toList_rightAligned (width n : Nat) :
    (rightAligned width n).toList = List.leftpad width ' ' (Nat.toDigits 10 n) := by
  unfold rightAligned List.leftpad
  dsimp only
  rw [String.toList_append, String.toList_ofList, toList_toString, ← String.length_toList,
    toList_toString]

/-- Neither a digit nor a space moves the cursor. -/
theorem visible_number (width n : Nat) : visible (rightAligned width n ++ " ") =
    List.leftpad width ' ' (Nat.toDigits 10 n) ++ [' '] := by
  have htext : (rightAligned width n ++ " ").toList =
      List.leftpad width ' ' (Nat.toDigits 10 n) ++ [' '] := by
    rw [String.toList_append, toList_rightAligned]
    rfl
  refine StyledText.visible_eq htext fun c hc => ?_
  have hspace : movesCursor ' ' = false := by decide
  rcases List.mem_append.1 hc with hc | hc
  · rcases List.mem_append.1 hc with hc | hc
    · rw [List.eq_of_mem_replicate hc]
      exact hspace
    · exact StyledText.movesCursor_of_isDigit
        (Nat.isDigit_of_mem_toDigits (by decide) (by decide) hc)
  · rw [List.eq_of_mem_singleton hc]
    exact hspace

theorem number_ne_empty (width n : Nat) : rightAligned width n ++ " " ≠ "" := by
  intro h
  have hlist := congrArg String.toList h
  rw [String.toList_append] at hlist
  simp at hlist

/-- Is it an underline? -/
def IsUnderline (span : Span) : Prop :=
  span.style ∈ ["bold #a80000 underline", "bold #8a6d00 underline"]

instance : DecidablePred IsUnderline := fun span =>
  inferInstanceAs (Decidable (span.style ∈ ["bold #a80000 underline", "bold #8a6d00 underline"]))

/-- What stands before a line. -/
def gutter (width number : Nat) (ds : List Diagnostic) : StyledText := addGutter {} width number ds

/-- The number and the mark, neither of them underlined. -/
theorem exists_gutter (width number : Nat) (ds : List Diagnostic) :
    ∃ numberStyle mark markStyle, gutter width number ds =
        (({} : StyledText).add (rightAligned width number ++ " ") numberStyle).add mark markStyle ∧
      (∀ start stop, ¬ IsUnderline ⟨start, stop, numberStyle⟩) ∧
      (∀ start stop, ¬ IsUnderline ⟨start, stop, markStyle⟩) ∧
      visible mark = if ds = [] then [' ', ' ']
        else if Diagnostic.worst ds = .error then ['●', ' '] else ['▲', ' '] := by
  have hplain : ∀ {style : String}, style ∉ ["bold #a80000 underline", "bold #8a6d00 underline"] →
      ∀ start stop, ¬ IsUnderline ⟨start, stop, style⟩ := fun h _ _ => h
  unfold gutter addGutter
  dsimp only
  by_cases hnone : ds = []
  · rw [if_pos hnone, if_pos hnone]
    exact ⟨_, _, _, rfl, hplain (by decide), hplain (by decide), by decide⟩
  · rw [if_neg hnone, if_neg hnone]
    refine ⟨_, _, _, rfl, ?_⟩
    cases Diagnostic.worst ds <;> exact ⟨hplain (by decide), hplain (by decide), by decide⟩

theorem plain_gutter (lines : List String) (ds : List Diagnostic) (i : Nat) :
    (gutter (numberWidth lines) (i + 1) (forLine ds i)).plain = gutterText lines ds i := by
  obtain ⟨numberStyle, mark, markStyle, hgutter, -, -, hmark⟩ :=
    exists_gutter (numberWidth lines) (i + 1) (forLine ds i)
  have hmarkText : visible mark = markText ds i := by
    have hne : ¬ Severity.warning = Severity.error := by decide
    rw [hmark, Diagnostic.worst_forLine, markText]
    by_cases herror : ∃ d ∈ ds, d.line = i ∧ d.severity = .error
    · have hsome : ¬ forLine ds i = [] := fun hnil =>
        Diagnostic.forLine_eq_nil_iff.1 hnil (herror.imp fun d hd => ⟨hd.1, hd.2.1⟩)
      rw [if_neg hsome, if_pos herror, if_pos rfl, if_pos herror]
    · rw [if_neg herror, if_neg hne, if_neg herror]
      by_cases hsome : ∃ d ∈ ds, d.line = i
      · rw [if_pos hsome, if_neg fun hnil => Diagnostic.forLine_eq_nil_iff.1 hnil hsome]
      · rw [if_neg hsome, if_pos (Diagnostic.forLine_eq_nil_iff.2 hsome)]
  rw [hgutter, StyledText.plain_add, StyledText.plain_add, visible_number, hmarkText, gutterText,
    numberWidth_eq, List.append_assoc, List.append_assoc]
  rfl

/-! ## Underlines -/

/-- What is underlined of a line for a diagnostic: up to twenty characters from its column on, as
far as the line goes. -/
def place? (line : String) (d : Diagnostic) : Option Span :=
  if d.column < (visible line).length then
    some {
      start := d.column
      stop := min (d.column + 20) (visible line).length
      style := d.severity.ink ++ " underline" }
  else none

theorem place?_eq_some {line : String} {d : Diagnostic} {span : Span}
    (h : place? line d = some span) (hcolumn : 0 ≤ d.column) :
    span.Within (visible line).length ∧ span.start < span.stop := by
  unfold place? at h
  split at h
  · next hinside =>
    obtain rfl := Option.some.inj h
    refine ⟨⟨hcolumn, ?_, ?_⟩, ?_⟩ <;> dsimp only <;> omega
  · exact nomatch h

/-- A line with the places of diagnostics underlined, as it is seen. -/
def underlinedText (line : String) (ds : List Diagnostic) : StyledText := underlined line ds

/-- The line may show fewer characters than were read, but then there is less to underline. -/
theorem underline_eq {line : String} {d : Diagnostic} (h : 0 ≤ d.column) {t : StyledText}
    (ht : t.plain = visible line) :
    underline line.length t d = { t with spans := t.spans ++ (place? line d).toList } := by
  have hlength : t.length = (visible line).length := congrArg List.length ht
  have hless : (visible line).length ≤ line.length := StyledText.length_visible_le line
  have hwidth : d.endColumn = d.column + 20 := rfl
  unfold underline
  dsimp only
  rw [hwidth]
  show (if _ then t.stylize _ _ _ else t) = _
  rw [StyledText.stylize_of_nonneg t _ (by omega) (by omega), hlength]
  by_cases hinside : d.column < (visible line).length
  · have hstart : min d.column (line.length : Int) = d.column := by omega
    have hstop : min ((visible line).length : Int) (min (d.column + 20) line.length) =
        min (d.column + 20) (visible line).length := by omega
    have hplace : place? line d = some ⟨d.column, min (d.column + 20) (visible line).length,
      d.severity.ink ++ " underline"⟩ := if_pos hinside
    rw [if_pos (by omega), if_pos (by omega), hstart, hstop, hplace]
    rfl
  · -- The column may lie within the characters that were read, but not within those shown.
    have hplace : place? line d = none := if_neg hinside
    rw [if_neg (show ¬ (min d.column (line.length : Int) < (visible line).length ∧ _) by omega),
      ite_self, hplace, Option.toList_none, List.append_nil]

theorem underlined_eq {line : String} {ds : List Diagnostic} (h : ∀ d ∈ ds, 0 ≤ d.column) :
    underlinedText line ds =
      { plain := visible line, style := "", spans := ds.filterMap (place? line) } := by
  have hfold : ∀ t : StyledText, t.plain = visible line →
      ds.foldl (underline line.length) t =
        { t with spans := t.spans ++ ds.filterMap (place? line) } := by
    induction ds with
    | nil =>
      intro t _
      show t = { t with spans := t.spans ++ [] }
      rw [List.append_nil]
    | cons d ds ih =>
      obtain ⟨hd, hds⟩ := List.forall_mem_cons.1 h
      intro t ht
      have hrest := ih hds { t with spans := t.spans ++ (place? line d).toList } ht
      rw [List.foldl_cons, underline_eq hd ht, hrest, List.filterMap_cons]
      cases place? line d <;> simp
  exact hfold (StyledText.of line) rfl

theorem isUnderline_of_place? {line : String} {d : Diagnostic} {span : Span}
    (h : place? line d = some span) : IsUnderline span := by
  unfold place? at h
  split at h
  · obtain rfl := Option.some.inj h
    have hink : ∀ severity : Severity, severity.ink ++ " underline" ∈
        ["bold #a80000 underline", "bold #8a6d00 underline"] := by
      intro severity
      cases severity <;> decide
    exact hink d.severity
  · exact nomatch h

/-- Underlining changes neither the text nor its style. -/
theorem foldl_underline_keeps (length : Nat) (ds : List Diagnostic) (t : StyledText) :
    (ds.foldl (underline length) t).plain = t.plain ∧
      (ds.foldl (underline length) t).style = t.style := by
  induction ds generalizing t with
  | nil => exact ⟨rfl, rfl⟩
  | cons d ds ih =>
    have hone : (underline length t d).plain = t.plain ∧
        (underline length t d).style = t.style := by
      unfold underline
      dsimp only
      split
      · exact ⟨StyledText.plain_stylize t _ _ _, StyledText.style_stylize t _ _ _⟩
      · exact ⟨rfl, rfl⟩
    rw [List.foldl_cons, (ih _).1, (ih _).2]
    exact hone

theorem plain_underlined (line : String) (ds : List Diagnostic) :
    (underlinedText line ds).plain = visible line :=
  (foldl_underline_keeps line.length ds _).1.trans rfl

theorem style_underlined (line : String) (ds : List Diagnostic) :
    (underlinedText line ds).style = "" := (foldl_underline_keeps line.length ds _).2

theorem spanned_underlined {line : String} {ds : List Diagnostic} (h : ∀ d ∈ ds, 0 ≤ d.column) :
    Spanned (underlinedText line ds) := by
  rw [underlined_eq h]
  intro span hspan
  obtain ⟨d, hd, hplace⟩ := List.mem_filterMap.1 hspan
  exact (place?_eq_some hplace (h d hd)).1

/-! ## Rows with their spans -/

/-- A row, as it is seen: what stands before a line, and the line. -/
def rowText (width : Nat) (groups : Diagnostic.Groups) (index : Nat) (line : String) : StyledText :=
  gutter width (index + 1) (groups.get index) ++ underlinedText line (groups.get index)

/-- The row of a line. -/
def rowOfLine (lines : List String) (ds : List Diagnostic) (i : Nat) (line : String) :
    StyledText :=
  gutter (numberWidth lines) (i + 1) (forLine ds i) ++ underlinedText line (forLine ds i)

theorem addRows_cons_cons {τ : Type} [Rich τ] (width : Nat) (groups : Diagnostic.Groups) (t : τ)
    (index : Nat) (line next : String) (lines : List String) :
    addRows width groups t index (line :: next :: lines) =
      addRows width groups (Rich.add (addRow width groups t index line) "\n") (index + 1)
        (next :: lines) := rfl

theorem addGutter_eq (t : StyledText) (width number : Nat) (ds : List Diagnostic) :
    addGutter t width number ds = t ++ gutter width number ds := by
  have hadd : ∀ {s style : String} {mark markStyle : String},
      (t.add s style).add mark markStyle =
        t ++ (({} : StyledText).add s style).add mark markStyle := by
    intro s style mark markStyle
    rw [← StyledText.add_append (StyledText.style_add {} s style), ← StyledText.add_append rfl,
      StyledText.append_empty]
  unfold gutter addGutter
  dsimp only
  split
  · exact hadd
  · exact hadd

theorem style_gutter (width number : Nat) (ds : List Diagnostic) :
    (gutter width number ds).style = "" := by
  obtain ⟨_, _, _, hgutter, -⟩ := exists_gutter width number ds
  rw [hgutter, StyledText.style_add, StyledText.style_add]

theorem style_rowText (width : Nat) (groups : Diagnostic.Groups) (index : Nat) (line : String) :
    (rowText width groups index line).style = "" := style_gutter _ _ _

theorem addRow_eq (width : Nat) (groups : Diagnostic.Groups) (t : StyledText) (index : Nat)
    (line : String) : addRow width groups t index line = t ++ rowText width groups index line := by
  show addGutter t width (index + 1) _ ++ underlinedText line _ = _
  rw [addGutter_eq, StyledText.append_assoc (style_gutter _ _ _) (style_underlined _ _), rowText]

/-- The rows of lines, each behind the one before it, are put together behind the text. -/
theorem addRows_eq (width : Nat) (groups : Diagnostic.Groups) (lines : List String) :
    ∀ (t : StyledText) (first : Nat) (line : String),
      addRows width groups t first (line :: lines) = t ++ Rich.joinWith "\n"
        ((line :: lines).mapIdx fun i line => rowText width groups (first + i) line) := by
  induction lines with
  | nil =>
    intro t first line
    show addRow width groups t first line = t ++ Rich.joinWith "\n" [rowText width groups first line]
    rw [addRow_eq, StyledText.joinWith_cons (style_rowText _ _ _ _)]
    rfl
  | cons next lines ih =>
    intro t first line
    have hrow := style_rowText width groups first line
    have hstyle : ∀ row ∈ (line :: next :: lines).mapIdx fun i line =>
        rowText width groups (first + i) line, row.style = "" := by
      intro row hrow
      obtain ⟨i, hi, rfl⟩ := List.mem_mapIdx.1 hrow
      exact style_rowText _ _ _ _
    have hshift : ((next :: lines).mapIdx fun i line => rowText width groups (first + (i + 1)) line) =
        (next :: lines).mapIdx fun i line => rowText width groups (first + 1 + i) line := by
      congr 1
      funext i line
      rw [Nat.add_assoc, Nat.add_comm i 1]
    rw [List.mapIdx_cons] at hstyle ⊢
    rw [hshift, List.mapIdx_cons] at hstyle ⊢
    rw [addRows_cons_cons, ih, StyledText.joinWith_cons_cons hstyle, addRow_eq]
    show (t ++ rowText width groups first line).add "\n" ++ _ = _
    rw [StyledText.add_append hrow,
      StyledText.append_assoc ((StyledText.style_add _ _ _).trans hrow), List.mapIdx_cons]
    · rfl
    · rw [List.mapIdx_cons]
      exact StyledText.style_joinWith (List.forall_mem_cons.1 hstyle).2

/-- The view of a source, as it is seen. -/
def sourceText (lines : List String) (ds : List Diagnostic) : StyledText := source lines ds

theorem sourceText_eq (lines : List String) (ds : List Diagnostic) :
    sourceText lines ds = Rich.joinWith "\n" (lines.mapIdx (rowOfLine lines ds)) := by
  have hrow : ∀ i line, rowText (numberWidth lines) (Diagnostic.groupByLine ds) i line =
      rowOfLine lines ds i line := by
    intro i line
    rw [rowText, rowOfLine, Diagnostic.get_groupByLine]
  have hstyle : ∀ row ∈ lines.mapIdx (rowOfLine lines ds), row.style = "" := by
    intro row hmem
    obtain ⟨i, hi, rfl⟩ := List.mem_mapIdx.1 hmem
    exact style_gutter _ _ _
  cases lines with
  | nil => rfl
  | cons line lines =>
    show addRows _ _ (Rich.of "") 0 (line :: lines) = _
    rw [addRows_eq]
    simp only [Nat.zero_add, hrow]
    exact StyledText.empty_append (StyledText.style_joinWith hstyle)

theorem spanned_gutter (width number : Nat) (ds : List Diagnostic) :
    Spanned (gutter width number ds) := by
  obtain ⟨_, _, _, hgutter, -⟩ := exists_gutter width number ds
  rw [hgutter]
  exact (StyledText.spanned_empty.add _ _).add _ _

theorem not_isUnderline_of_mem_spanIf {style : String} {start stop : Nat}
    (h : ∀ start stop, ¬ IsUnderline ⟨start, stop, style⟩) {span : Span}
    (hspan : span ∈ Rich.spanIf style start stop) : ¬ IsUnderline span := by
  unfold Rich.spanIf at hspan
  split at hspan
  · exact absurd hspan List.not_mem_nil
  · obtain rfl := List.mem_singleton.1 hspan
    exact h start stop

theorem not_isUnderline_of_mem_gutter {width number : Nat} {ds : List Diagnostic} {span : Span}
    (h : span ∈ (gutter width number ds).spans) : ¬ IsUnderline span := by
  obtain ⟨numberStyle, mark, markStyle, hgutter, hnumber, hmark, hshown⟩ :=
    exists_gutter width number ds
  have hsaid : mark ≠ "" := by
    rintro rfl
    have hlength := congrArg List.length hshown
    split at hlength
    · exact nomatch hlength
    · split at hlength <;> exact nomatch hlength
  rw [hgutter, StyledText.spans_add _ _ hsaid, StyledText.spans_add _ _ (number_ne_empty _ _)] at h
  rcases List.mem_append.1 h with h | h
  · exact not_isUnderline_of_mem_spanIf hnumber h
  · exact not_isUnderline_of_mem_spanIf hmark h

variable {lines : List String} {ds : List Diagnostic}

theorem plain_rowOfLine (lines : List String) (ds : List Diagnostic) (i : Nat) (line : String) :
    (rowOfLine lines ds i line).plain = gutterText lines ds i ++ visible line := by
  rw [rowOfLine, StyledText.plain_append, plain_gutter, plain_underlined]

theorem style_of_mem_rows {t : StyledText} (h : t ∈ lines.mapIdx (rowOfLine lines ds)) :
    t.style = "" := by
  obtain ⟨i, hi, rfl⟩ := List.mem_mapIdx.1 h
  exact style_gutter _ _ _

theorem map_plain_rows (lines : List String) (ds : List Diagnostic) :
    (lines.mapIdx (rowOfLine lines ds)).map StyledText.plain = rowTexts lines ds := by
  refine List.ext_getElem? fun i => ?_
  simp [rowTexts, Function.comp_def, plain_rowOfLine]

theorem plain_source (lines : List String) (ds : List Diagnostic) :
    (sourceText lines ds).plain = Text.joinWith '\n' (rowTexts lines ds) := by
  rw [sourceText_eq, StyledText.plain_joinWith fun t => style_of_mem_rows, map_plain_rows]

theorem column_of_mem_forLine (h : ∀ d ∈ ds, 0 ≤ d.column) {line : Int} :
    ∀ d ∈ forLine ds line, 0 ≤ d.column :=
  fun d hd => h d (List.mem_filter.1 hd).1

theorem spanned_source (h : ∀ d ∈ ds, 0 ≤ d.column) : Spanned (sourceText lines ds) := by
  rw [sourceText_eq]
  refine StyledText.spanned_joinWith (fun t => style_of_mem_rows) fun t ht => ?_
  obtain ⟨i, hi, rfl⟩ := List.mem_mapIdx.1 ht
  exact (spanned_gutter _ _ _).append (spanned_underlined (column_of_mem_forLine h))
    (style_underlined _ _)

/-- No row holds a line feed of its own. -/
theorem lineFeed_not_mem_rowTexts (h : ∀ line ∈ lines, '\n' ∉ line.toList) {text : List Char}
    (htext : text ∈ rowTexts lines ds) : '\n' ∉ text := by
  obtain ⟨i, hi, rfl⟩ := List.mem_mapIdx.1 htext
  have hmark : '\n' ∉ markText ds i := by
    unfold markText
    split
    · decide
    · split <;> decide
  have hdigits : '\n' ∉ Nat.toDigits 10 (i + 1) := fun hmem =>
    absurd (Nat.isDigit_of_mem_toDigits (by decide) (by decide) hmem) (by decide)
  have hvisible : '\n' ∉ visible lines[i] :=
    StyledText.not_mem_visible (h lines[i] (List.getElem_mem hi))
  simp [gutterText, List.leftpad, hmark, hdigits, hvisible]

theorem splitOn_source (h : ∀ line ∈ lines, '\n' ∉ line.toList) (hne : lines ≠ []) :
    Text.splitOn '\n' (sourceText lines ds).plain = rowTexts lines ds := by
  have hrows : rowTexts lines ds ≠ [] := by
    rw [← List.length_pos_iff, length_rowTexts]
    exact List.length_pos_of_ne_nil hne
  rw [plain_source]
  exact Text.splitOn_joinWith hrows fun text => lineFeed_not_mem_rowTexts h

theorem getElem?_splitOn_source {lines : List String} {ds : List Diagnostic} {i : Nat}
    {line : String} (h : ∀ line ∈ lines, '\n' ∉ line.toList) (hi : lines[i]? = some line) :
    (Text.splitOn '\n' (sourceText lines ds).plain)[i]? =
      some (gutterText lines ds i ++ visible line) := by
  rw [splitOn_source h (List.ne_nil_of_mem (List.mem_of_getElem? hi)), rowTexts,
    List.getElem?_mapIdx, hi]
  rfl

/-! ## Where the underlines are -/

/-- Where a line begins in the view: after the rows above it and what stands before it. -/
def sourceStart (lines : List String) (ds : List Diagnostic) (i : Nat) : Nat :=
  Text.startOf (rowTexts lines ds) i + (gutterText lines ds i).length

/-- The underlines of the view, row by row, those of a row in the order of its diagnostics. -/
def underlines (lines : List String) (ds : List Diagnostic) : List Span :=
  (lines.mapIdx fun i line =>
    ((forLine ds i).filterMap (place? line)).map (·.shift ↑(sourceStart lines ds i))).flatten

theorem isUnderline_shift (span : Span) (n : Int) : IsUnderline (span.shift n) ↔ IsUnderline span :=
  Iff.rfl

theorem filter_spans_rowOfLine (h : ∀ d ∈ ds, 0 ≤ d.column) (i : Nat) (line : String) :
    (rowOfLine lines ds i line).spans.filter (decide <| IsUnderline ·) =
      ((forLine ds i).filterMap (place? line)).map (·.shift ↑(gutterText lines ds i).length) := by
  have hgutter : (gutter (numberWidth lines) (i + 1) (forLine ds i)).spans.filter
      (decide <| IsUnderline ·) = [] := by
    rw [List.filter_eq_nil_iff]
    intro span hspan
    rw [decide_eq_true_iff]
    exact not_isUnderline_of_mem_gutter hspan
  have hlength : (gutter (numberWidth lines) (i + 1) (forLine ds i)).length =
      (gutterText lines ds i).length := congrArg List.length (plain_gutter lines ds i)
  rw [rowOfLine, StyledText.spans_append _ (style_underlined _ _), List.filter_append, hgutter,
    List.nil_append, hlength, underlined_eq (column_of_mem_forLine h), List.filter_eq_self]
  intro span hspan
  obtain ⟨inner, hinner, rfl⟩ := List.mem_map.1 hspan
  obtain ⟨d, -, hplace⟩ := List.mem_filterMap.1 hinner
  rw [decide_eq_true_iff, isUnderline_shift]
  exact isUnderline_of_place? hplace

theorem filter_spans_source (h : ∀ d ∈ ds, 0 ≤ d.column) :
    (sourceText lines ds).spans.filter (decide <| IsUnderline ·) = underlines lines ds := by
  have hshift : ∀ (k n : Nat) (span : Span), (span.shift n).shift k = span.shift ↑(k + n) := by
    intro k n span
    simp only [Span.shift, Span.mk.injEq, and_true]
    omega
  -- Row by row: an underline was moved behind the gutter first, and then to where its row begins.
  rw [sourceText_eq, StyledText.spans_joinWith fun t => style_of_mem_rows, map_plain_rows,
    List.mapIdx_mapIdx, List.filter_flatten, underlines]
  refine congrArg List.flatten (List.ext_getElem? fun i => ?_)
  rw [List.getElem?_map, List.getElem?_mapIdx, List.getElem?_mapIdx, Option.map_map]
  refine congrArg (Option.map · lines[i]?) (funext fun line => ?_)
  have hmoved : ∀ spans : List Span, ∀ n : Int,
      (spans.map (·.shift n)).filter (decide <| IsUnderline ·) =
        (spans.filter (decide <| IsUnderline ·)).map (·.shift n) := by
    intro spans n
    rw [List.filter_map]
    rfl
  simp only [Function.comp_apply, hmoved, filter_spans_rowOfLine h, List.map_map, sourceStart]
  exact List.map_congr_left fun span _ => hshift _ _ span

/-- A line stands in its row after its gutter. -/
theorem exists_source_eq_append {i : Nat} {line : String} (h : lines[i]? = some line) :
    ∃ before after, (sourceText lines ds).plain = before ++ visible line ++ after ∧
      before.length = sourceStart lines ds i := by
  have hrow : (rowTexts lines ds)[i]? = some (gutterText lines ds i ++ visible line) := by
    rw [rowTexts, List.getElem?_mapIdx, h]
    rfl
  obtain ⟨before, after, hplain, hbefore⟩ := Text.joinWith_eq_append '\n' hrow
  refine ⟨before ++ gutterText lines ds i, after, ?_, ?_⟩
  · rw [plain_source, hplain]
    simp only [List.append_assoc]
  · rw [List.length_append, hbefore, sourceStart]

/-- What a diagnostic has underlined is some of its own line. -/
theorem underline_inside {line : String} {d : Diagnostic} {span : Span}
    (h : place? line d = some span) (hcolumn : 0 ≤ d.column) (start : Nat) :
    start ≤ (span.shift start).start ∧ (span.shift start).start < (span.shift start).stop ∧
      (span.shift start).stop ≤ start + (visible line).length := by
  obtain ⟨⟨hstart, -, hstop⟩, hless⟩ := place?_eq_some h hcolumn
  simp only [Span.shift]
  omega

/-- Each underline is one of a diagnostic of a line. -/
theorem exists_of_mem_underlines {span : Span} (h : span ∈ underlines lines ds) :
    ∃ (i : Nat) (line : String) (d : Diagnostic) (inner : Span), lines[i]? = some line ∧ d ∈ ds ∧
      d.line = i ∧ place? line d = some inner ∧ span = inner.shift ↑(sourceStart lines ds i) := by
  obtain ⟨spans, hspans, hspan⟩ := List.mem_flatten.1 h
  obtain ⟨i, hi, rfl⟩ := List.mem_mapIdx.1 hspans
  obtain ⟨inner, hinner, rfl⟩ := List.mem_map.1 hspan
  obtain ⟨d, hd, hplace⟩ := List.mem_filterMap.1 hinner
  obtain ⟨hmem, hline⟩ := List.mem_filter.1 hd
  exact ⟨i, lines[i], d, inner, List.getElem?_eq_getElem hi, hmem, of_decide_eq_true hline, hplace,
    rfl⟩

/-! ## What does not matter -/

/-- The diagnostics about a line of the source. -/
def aboutLines (lines : List String) (ds : List Diagnostic) : List Diagnostic :=
  ds.filter fun d => 0 ≤ d.line ∧ d.line < lines.length

theorem forLine_aboutLines {i : Nat} (h : i < lines.length) :
    forLine (aboutLines lines ds) i = forLine ds i := by
  unfold forLine aboutLines
  rw [List.filter_filter]
  refine List.filter_congr fun d _ => ?_
  by_cases hline : d.line = i
  · simp [hline, h]
  · simp [hline]

theorem addRows_congr {τ : Type} [Rich τ] (width : Nat) {groups groups' : Diagnostic.Groups}
    {lines : List String} {t : τ} {first : Nat}
    (h : ∀ i < lines.length, groups.get ↑(first + i) = groups'.get ↑(first + i)) :
    addRows width groups t first lines = addRows width groups' t first lines := by
  have hrow : ∀ {t : τ} {first : Nat} {line : String}, groups.get first = groups'.get first →
      addRow width groups t first line = addRow width groups' t first line := by
    intro t first line hfirst
    unfold addRow
    rw [hfirst]
  induction lines generalizing t first with
  | nil => rfl
  | cons line lines ih =>
    have hline : addRow width groups t first line = addRow width groups' t first line :=
      hrow (h 0 (Nat.zero_lt_succ _))
    have hrest : ∀ i < lines.length, groups.get ↑(first + 1 + i) = groups'.get ↑(first + 1 + i) := by
      intro i hi
      have hnext := h (i + 1) (Nat.succ_lt_succ hi)
      rwa [← Nat.add_assoc, Nat.add_right_comm] at hnext
    cases lines with
    | nil => exact hline
    | cons next lines =>
      rw [addRows_cons_cons, addRows_cons_cons, hline]
      exact ih hrest

theorem source_aboutLines (τ : Type) [Rich τ] (lines : List String) (ds : List Diagnostic) :
    (source lines (aboutLines lines ds) : τ) = source lines ds := by
  refine addRows_congr _ fun i hi => ?_
  rw [Nat.zero_add, Diagnostic.get_groupByLine, Diagnostic.get_groupByLine, forLine_aboutLines hi]

/-- A row has the mark of a line, which the order of the diagnostics has no part in. -/
theorem rowTexts_perm {ds' : List Diagnostic} (h : ds.Perm ds') (lines : List String) :
    rowTexts lines ds = rowTexts lines ds' := by
  have hmark : ∀ line, markText ds line = markText ds' line := by
    intro line
    simp only [markText, h.mem_iff]
  simp only [rowTexts, gutterText, hmark]

theorem plain_source_perm {ds' : List Diagnostic} (h : ds.Perm ds') (lines : List String) :
    (sourceText lines ds).plain = (sourceText lines ds').plain := by
  rw [plain_source, plain_source, rowTexts_perm h]

/-! ## Whatever the texts are -/

section
variable {τ : Type} [Rich τ] [LawfulRich τ]

theorem seen_underlined (line : String) (ds : List Diagnostic) :
    seen (underlined line ds : τ) = underlinedText line ds := by
  have hstyle : ∀ severity : Severity, severity.ink ++ " underline" ≠ "" := by
    intro severity
    cases severity <;> decide
  have hone : ∀ (t : τ) (d : Diagnostic),
      seen (underline line.length t d) = underline line.length (seen t) d := by
    intro t d
    unfold underline
    dsimp only
    split
    · exact Rich.seen_stylize t (hstyle d.severity) _ _
    · rfl
  have hfold : ∀ t : τ, seen (ds.foldl (underline line.length) t) =
      ds.foldl (underline line.length) (seen t) := by
    induction ds with
    | nil => exact fun _ => rfl
    | cons d ds ih =>
      intro t
      rw [List.foldl_cons, List.foldl_cons, ih, hone]
  rw [underlined, hfold, Rich.seen_of]
  rfl

theorem seen_addRow (width : Nat) (groups : Diagnostic.Groups) (t : τ) (index : Nat)
    (line : String) :
    seen (addRow width groups t index line) = addRow width groups (seen t) index line := by
  have hgutter : ∀ ds : List Diagnostic,
      seen (addGutter t width (index + 1) ds) = addGutter (seen t) width (index + 1) ds := by
    intro ds
    unfold addGutter
    dsimp only
    split
    · rw [Rich.seen_add, Rich.seen_add]
      rfl
    · rw [Rich.seen_add, Rich.seen_add]
      rfl
  unfold addRow
  dsimp only
  rw [Rich.seen_append, hgutter, seen_underlined]
  rfl

theorem seen_addRows (width : Nat) (groups : Diagnostic.Groups) (lines : List String) :
    ∀ (t : τ) (first : Nat),
      seen (addRows width groups t first lines) = addRows width groups (seen t) first lines := by
  induction lines with
  | nil => exact fun _ _ => rfl
  | cons line lines ih =>
    intro t first
    cases lines with
    | nil => exact seen_addRow width groups t first line
    | cons next lines =>
      rw [addRows_cons_cons, addRows_cons_cons, ih, Rich.seen_add, seen_addRow]
      rfl

theorem seen_source (lines : List String) (ds : List Diagnostic) :
    seen (source lines ds : τ) = sourceText lines ds := by
  unfold source
  rw [seen_addRows, Rich.seen_of]
  rfl

theorem plain_seen_source (lines : List String) (ds : List Diagnostic) :
    Rich.plain (source lines ds : τ) = (sourceText lines ds).plain :=
  congrArg StyledText.plain (seen_source lines ds)

theorem spans_seen_source (lines : List String) (ds : List Diagnostic) :
    Rich.spans (source lines ds : τ) = (sourceText lines ds).spans :=
  congrArg StyledText.spans (seen_source lines ds)

end

/-! ## The whole view -/

/-- The view of a source has a row for each line. All its spans lie in it, and its underlines are
those of the diagnostics: each is some of the line that its diagnostic is about. A diagnostic about
no line changes nothing. -/
theorem source_layout (τ : Type) [Rich τ] [LawfulRich τ] (lines : List String)
    (ds : List Diagnostic) (hlines : ∀ line ∈ lines, '\n' ∉ line.toList)
    (hcolumns : ∀ d ∈ ds, 0 ≤ d.column) :
    let view : τ := source lines ds
    Rich.plain view = Text.joinWith '\n' (rowTexts lines ds) ∧
      (rowTexts lines ds).length = lines.length ∧
      (lines ≠ [] → Text.splitOn '\n' (Rich.plain view) = rowTexts lines ds) ∧
      source lines (aboutLines lines ds) = view ∧
      (∀ ds', ds.Perm ds' → Rich.plain (source lines ds' : τ) = Rich.plain view) ∧
      (∀ span ∈ Rich.spans view, span.Within (Rich.plain view).length) ∧
      (Rich.spans view).filter (decide <| IsUnderline ·) = underlines lines ds ∧
      (∀ i line, lines[i]? = some line → ∃ before after,
        Rich.plain view = before ++ visible line ++ after ∧
          before.length = sourceStart lines ds i) ∧
      ∀ span ∈ Rich.spans view, IsUnderline span →
        ∃ (i : Nat) (line : String), ∃ d ∈ ds, lines[i]? = some line ∧ d.line = i ∧
          sourceStart lines ds i ≤ span.start ∧ span.start < span.stop ∧
            span.stop ≤ sourceStart lines ds i + (visible line).length := by
  intro view
  have hplain : Rich.plain view = (sourceText lines ds).plain := plain_seen_source lines ds
  have hspans : Rich.spans view = (sourceText lines ds).spans := spans_seen_source lines ds
  rw [hplain, hspans]
  refine ⟨plain_source lines ds, length_rowTexts lines ds, splitOn_source hlines,
    source_aboutLines τ lines ds, fun ds' h => ?_, spanned_source hcolumns,
    filter_spans_source hcolumns, fun i line => exists_source_eq_append, ?_⟩
  · rw [plain_seen_source]
    exact (plain_source_perm h lines).symm
  intro span hspan hunderline
  have hmem : span ∈ underlines lines ds := by
    rw [← filter_spans_source hcolumns]
    exact List.mem_filter.2 ⟨hspan, decide_eq_true hunderline⟩
  obtain ⟨i, line, d, inner, hline, hd, hi, hplace, rfl⟩ := exists_of_mem_underlines hmem
  exact ⟨i, line, d, hd, hline, hi, underline_inside hplace (hcolumns d hd) _⟩

/-- Two lines, the first with a bell in it. The warning about it goes to its end, the error about the
second one begins behind its first character, and the error about an eighth line is not shown. -/
theorem source_layout_two_lines :
    let lines := ["a\x07b", "xyz"]
    let ds : List Diagnostic :=
      [⟨1, 1, .error, "e"⟩, ⟨7, 0, .error, "nowhere"⟩, ⟨0, 0, .warning, "w"⟩]
    let view : StyledText := source lines ds
    (∀ line ∈ lines, '\n' ∉ line.toList) ∧ (∀ d ∈ ds, 0 ≤ d.column) ∧
      view.plain = "1 ▲ ab\n2 ● xyz".toList ∧
      view.spans.filter (decide <| IsUnderline ·) =
        [⟨4, 6, "bold #8a6d00 underline"⟩, ⟨12, 14, "bold #a80000 underline"⟩] := by
  intro lines ds view
  have hlines : ∀ line ∈ lines, '\n' ∉ line.toList := by decide
  have hcolumns : ∀ d ∈ ds, 0 ≤ d.column := by decide
  obtain ⟨hplain, -, -, -, -, -, hunderlines, -⟩ :=
    source_layout StyledText lines ds hlines hcolumns
  exact ⟨hlines, hcolumns, hplain.trans (by decide), hunderlines.trans (by decide)⟩

end Workbench.View
