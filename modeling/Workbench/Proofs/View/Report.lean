import Mathlib.Data.List.Forall2
import Workbench.Diagnostic.Extract
import Workbench.Proofs.Number.Decimal
import Workbench.Proofs.View.Rich
import Workbench.View.Report

/-!
# Which reports there are

A table shows lines and columns from one on, and there is no report if one of these numbers has too
many digits.

* `Diagnostic.IsRead d`, `isRead_of_extract` : the line and the column of a diagnostic that a
  compiler wrote are numbers that can be read;
* `View.table_eq_ok`, `table_eq_error` : the table of diagnostics, and when there is none;
* `View.report_eq_ok`, `report_eq_error` : the report of a session likewise;
* `View.Says d row`, `View.PrintsAlike s p` : what is printed shows the diagnostics;
* `View.print_cases` : a report is printed unless the marks in a message cannot be read;
* `View.report_cases` : of read diagnostics, only one about the last column that can be read is in
  the way of the report.
-/

namespace Workbench

open Number (digitBound)

namespace Diagnostic

/-- A diagnostic whose line, counted from one, and whose column were read from a text. -/
structure IsRead (d : Diagnostic) : Prop where
  line_nonneg : 0 ≤ d.line
  line_lt : d.line + 1 < digitBound
  column_nonneg : 0 ≤ d.column
  column_lt : d.column < digitBound

theorem isRead_of_diagnostic? {o : Occurrence} {d : Diagnostic} (h : o.diagnostic? = some d) :
    IsRead d := by
  unfold Occurrence.diagnostic? at h
  dsimp only at h
  split at h
  · next line column hline hcolumn =>
    have hline := Number.lt_of_read? hline
    have hcolumn : column < digitBound := by
      split at hcolumn
      · obtain rfl := Option.some.inj hcolumn
        exact Number.digitBound_pos
      · exact Number.lt_of_read? hcolumn
    split at h
    · exact nomatch h
    · obtain rfl := Option.some.inj h
      constructor <;> dsimp only <;> omega
  · exact nomatch h

theorem isRead_of_extract {shapes : List Shape} {output : String} {d : Diagnostic}
    (h : d ∈ extract shapes output) : IsRead d := by
  obtain ⟨line, -, hline⟩ := List.mem_filterMap.1 h
  obtain ⟨shape, -, hshape⟩ := List.exists_of_findSome?_eq_some hline
  obtain ⟨o, -, ho⟩ := Option.bind_eq_some_iff.1 hshape
  exact isRead_of_diagnostic? ho

/-- The line and the column of a diagnostic, counted from one, have few enough digits. -/
structure IsShowable (d : Diagnostic) : Prop where
  line : (d.line + 1).natAbs < digitBound
  column : (d.column + 1).natAbs < digitBound

theorem IsRead.isShowable_iff {d : Diagnostic} (h : IsRead d) :
    IsShowable d ↔ d.column + 1 ≠ digitBound := by
  obtain ⟨hline, hline', hcolumn, hcolumn'⟩ := h
  constructor
  · rintro ⟨-, hshown⟩ he
    omega
  · intro hne
    constructor <;> omega

end Diagnostic

namespace View

open Diagnostic (IsShowable)

theorem fromOne_eq_ok {n : Int} (h : (n + 1).natAbs < digitBound) :
    fromOne n = .ok (Number.text (n + 1)) := by
  unfold fromOne
  rw [Number.text?_eq_some h]

theorem fromOne_eq_error {n : Int} (h : ¬ (n + 1).natAbs < digitBound) :
    fromOne n = .error .numberTooLong := by
  unfold fromOne
  rw [Number.text?_eq_none h]

section
variable {τ : Type} [Rich τ]

/-- The row of a diagnostic in a table. -/
def rowOf (d : Diagnostic) : List (Cell τ) :=
  [.styled (Rich.of d.severity.mark d.severity.ink), .marked (Number.text (d.line + 1)),
    .marked (Number.text (d.column + 1)), .styled (Rich.of d.severity.name d.severity.ink),
    .marked d.message]

theorem tableRow_eq_ok {d : Diagnostic} (h : IsShowable d) :
    (tableRow d : Except Failure (List (Cell τ))) = .ok (rowOf d) := by
  unfold tableRow
  rw [fromOne_eq_ok h.line, fromOne_eq_ok h.column]
  rfl

theorem tableRow_eq_error {d : Diagnostic} (h : ¬ IsShowable d) :
    (tableRow d : Except Failure (List (Cell τ))) = .error .numberTooLong := by
  unfold tableRow
  by_cases hline : (d.line + 1).natAbs < digitBound
  · rw [fromOne_eq_ok hline, fromOne_eq_error fun hcolumn => h ⟨hline, hcolumn⟩]
    rfl
  · rw [fromOne_eq_error hline]
    rfl

end

section Rows
variable {α : Type} {show? : Diagnostic → Except Failure α} {shown : Diagnostic → α}

theorem mapM_eq_ok (hok : ∀ {d}, IsShowable d → show? d = .ok (shown d)) {ds : List Diagnostic}
    (h : ∀ d ∈ ds, IsShowable d) : ds.mapM show? = .ok (ds.map shown) := by
  induction ds with
  | nil => rfl
  | cons d ds ih =>
    obtain ⟨hd, hds⟩ := List.forall_mem_cons.1 h
    rw [List.mapM_cons, hok hd, ih hds]
    rfl

/-- One diagnostic that cannot be shown is in the way of all. -/
theorem mapM_eq_error (hok : ∀ {d}, IsShowable d → show? d = .ok (shown d))
    (herror : ∀ {d}, ¬ IsShowable d → show? d = .error .numberTooLong) {ds : List Diagnostic}
    (h : ∃ d ∈ ds, ¬ IsShowable d) : ds.mapM show? = .error .numberTooLong := by
  induction ds with
  | nil => exact absurd h.choose_spec.1 List.not_mem_nil
  | cons d ds ih =>
    rw [List.mapM_cons]
    by_cases hd : IsShowable d
    · obtain ⟨d', hmem, hd'⟩ := h
      have hrest : d' ∈ ds := (List.mem_cons.1 hmem).resolve_left fun he => hd' (he ▸ hd)
      rw [hok hd, ih ⟨d', hrest, hd'⟩]
      rfl
    · rw [herror hd]
      rfl

end Rows

section
variable {τ : Type} [Rich τ]

/-- The table of diagnostics that can be shown. -/
def tableOf (ds : List Diagnostic) : Table τ where
  title := "Diagnostics"
  titleStyle := "bold #94bfc1"
  headerStyle := "bold #45d3ee"
  expand := true
  columns := [{ header := "" }, { header := "Line", toRight := true },
    { header := "Col", toRight := true }, { header := "Severity" },
    { header := "Message", noWrap := false }]
  rows := ds.map rowOf

theorem table_eq_ok {ds : List Diagnostic} (h : ∀ d ∈ ds, IsShowable d) :
    (table ds : Except Failure (Table τ)) = .ok (tableOf ds) := by
  unfold table
  rw [mapM_eq_ok tableRow_eq_ok h]
  rfl

theorem table_eq_error {ds : List Diagnostic} (h : ∃ d ∈ ds, ¬ IsShowable d) :
    (table ds : Except Failure (Table τ)) = .error .numberTooLong := by
  unfold table
  rw [mapM_eq_error tableRow_eq_ok tableRow_eq_error h]
  rfl

/-- What a report says about diagnostics, nothing if there are none. -/
def findingsOf (s : Session) : Option (Findings τ) :=
  if s.diagnostics = [] then none
  else some { table := tableOf s.diagnostics, summary := summary s.errorCount s.warningCount }

theorem report_eq_ok {s : Session} (h : ∀ d ∈ s.diagnostics, IsShowable d) :
    (report s : Except Failure (Report τ)) = .ok { panel := panel s, findings := findingsOf s } := by
  unfold report findingsOf
  split
  · rfl
  · rw [table_eq_ok h]
    rfl

theorem report_eq_error {s : Session} (h : ∃ d ∈ s.diagnostics, ¬ IsShowable d) :
    (report s : Except Failure (Report τ)) = .error .numberTooLong := by
  obtain ⟨d, hd, hd'⟩ := h
  unfold report
  rw [if_neg (List.ne_nil_of_mem hd), table_eq_error ⟨d, hd, hd'⟩]
  rfl

/-- Of diagnostics that were read, only one about the last column that can be read has no row:
counted from one, this column has a digit too many. -/
theorem report_cases (τ : Type) [Rich τ] {s : Session}
    (h : ∀ d ∈ s.diagnostics, Diagnostic.IsRead d) :
    ((∀ d ∈ s.diagnostics, d.column + 1 ≠ digitBound) ∧
        (report s : Except Failure (Report τ)) =
          .ok { panel := panel s, findings := findingsOf s }) ∨
      (∃ d ∈ s.diagnostics, d.column + 1 = digitBound) ∧
        (report s : Except Failure (Report τ)) = .error .numberTooLong := by
  by_cases hlast : ∃ d ∈ s.diagnostics, d.column + 1 = digitBound
  · refine .inr ⟨hlast, ?_⟩
    obtain ⟨d, hd, he⟩ := hlast
    exact report_eq_error ⟨d, hd, fun hshown => (h d hd).isShowable_iff.1 hshown he⟩
  · have hnone : ∀ d ∈ s.diagnostics, d.column + 1 ≠ digitBound :=
      fun d hd he => hlast ⟨d, hd, he⟩
    exact .inl ⟨hnone, report_eq_ok fun d hd => (h d hd).isShowable_iff.2 (hnone d hd)⟩

end

/-! ## Printing -/

section
variable {τ : Type} [Rich τ]

/-- A row that is printed says what a diagnostic says: its severity, its line and column counted from
one, and what is printed for its message. -/
def Says (d : Diagnostic) (row : List τ) : Prop :=
  ∃ message, Rich.Reads τ d.message message ∧
    row.map Rich.plain = [d.severity.mark.toList, (Number.text (d.line + 1)).toList,
      (Number.text (d.column + 1)).toList, d.severity.name.toList, message]

/-- The line with the numbers of errors and warnings. -/
def countsText (s : Session) : List Char :=
  (toString s.errorCount ++ " error(s), " ++ toString s.warningCount ++ " warning(s)").toList

/-- What is printed shows the log of a session and, if it has any, its diagnostics in their order,
each in a row of its own, and how many of them are errors and warnings. -/
structure PrintsAlike (s : Session) (p : Printed τ) : Prop where
  panel : p.panel = View.panel s
  nothing : s.diagnostics = [] → p.findings = none
  findings : s.diagnostics ≠ [] → ∃ rows line, p.findings = some (rows, line) ∧
    List.Forall₂ Says s.diagnostics rows ∧ Rich.plain line = countsText s

variable [LawfulRich τ]

theorem unmarked_of_isDigit {s : String} (h : ∀ c ∈ s.toList, c.isDigit = true ∨ c = '-') :
    Rich.Unmarked s := by
  intro c hc
  rcases h c hc with hdigit | rfl
  · constructor <;>
    · rintro rfl
      exact absurd hdigit (by decide)
  · decide

/-- Numbers hold no marks, and are printed as they are. -/
theorem reads_number (n : Int) : Rich.Reads τ (Number.text n) (Number.text n).toList := by
  have hchars : ∀ c ∈ (Number.text n).toList, c.isDigit = true ∨ c = '-' :=
    fun c => Number.isDigit_or_minus_of_mem_text
  have hvisible : Rich.visible (Number.text n) = (Number.text n).toList := by
    refine StyledText.visible_eq rfl fun c hc => ?_
    rcases hchars c hc with hdigit | rfl
    · exact StyledText.movesCursor_of_isDigit hdigit
    · decide
  have hreads : Rich.Reads τ (Number.text n) _ := (unmarked_of_isDigit hchars).reads
  rwa [hvisible] at hreads

theorem plain_of_severity (severity : Severity) :
    Rich.plain (Rich.of severity.mark severity.ink : τ) = severity.mark.toList ∧
      Rich.plain (Rich.of severity.name severity.ink : τ) = severity.name.toList := by
  rw [LawfulRich.plain_of, LawfulRich.plain_of]
  cases severity <;> decide

/-- What a row says of a diagnostic whose message is printed as it is. -/
def printedText (d : Diagnostic) : List (List Char) :=
  [d.severity.mark.toList, (Number.text (d.line + 1)).toList, (Number.text (d.column + 1)).toList,
    d.severity.name.toList, Rich.visible d.message]

/-- Messages without marks are printed as they are. -/
theorem map_plain_of_says {ds : List Diagnostic} {rows : List (List τ)}
    (h : List.Forall₂ Says ds rows) (hmessages : ∀ d ∈ ds, Rich.Unmarked d.message) :
    rows.map (fun row => row.map Rich.plain) = ds.map printedText := by
  induction h with
  | nil => rfl
  | @cons d row ds rows hsays _ ih =>
    obtain ⟨hd, hds⟩ := List.forall_mem_cons.1 hmessages
    obtain ⟨message, hreads, hrow⟩ := hsays
    obtain rfl := hreads.unique hd.reads
    rw [List.map_cons, List.map_cons, ih hds, hrow, printedText]

/-- A row is printed exactly if the marks in its message can be read. -/
theorem print_rowOf (d : Diagnostic) :
    (∃ row : List τ, (rowOf d).mapM Cell.print = .ok row ∧ Says d row) ∨
      ∃ failure, (Rich.read d.message : Except Failure τ) = .error failure ∧
        (rowOf d : List (Cell τ)).mapM Cell.print = .error failure := by
  obtain ⟨line, hline, hlineText⟩ := reads_number (τ := τ) (d.line + 1)
  obtain ⟨column, hcolumn, hcolumnText⟩ := reads_number (τ := τ) (d.column + 1)
  obtain ⟨hmark, hname⟩ := plain_of_severity (τ := τ) d.severity
  have hrow : (rowOf d : List (Cell τ)).mapM Cell.print =
      (Rich.read d.message).map fun message =>
        [Rich.of d.severity.mark d.severity.ink, line, column,
          Rich.of d.severity.name d.severity.ink, message] := by
    simp only [rowOf, List.mapM_cons, Cell.print, hline, hcolumn]
    cases (Rich.read d.message : Except Failure τ) <;> rfl
  cases hread : (Rich.read d.message : Except Failure τ) with
  | ok message =>
    refine .inl ⟨_, by rw [hrow, hread]; rfl, _, ⟨message, hread, rfl⟩, ?_⟩
    simp only [List.map_cons, List.map_nil, hmark, hname, hlineText, hcolumnText]
  | error failure => exact .inr ⟨failure, rfl, by rw [hrow, hread]; rfl⟩

/-- The rows of a table are printed, or the first message that cannot be read ends it. -/
theorem print_tableOf (ds : List Diagnostic) :
    ((∀ d ∈ ds, Rich.Readable τ d.message) ∧ ∃ rows : List (List τ),
        (tableOf ds).print = .ok rows ∧ List.Forall₂ Says ds rows) ∨
      ∃ d ∈ ds, ∃ failure, (Rich.read d.message : Except Failure τ) = .error failure ∧
        (tableOf ds : Table τ).print = .error failure := by
  show ((∀ d ∈ ds, _) ∧ ∃ rows : List (List τ),
      (ds.map rowOf).mapM (fun row : List (Cell τ) => row.mapM Cell.print) = .ok rows ∧ _) ∨
    ∃ d ∈ ds, ∃ failure, _ ∧
      (ds.map rowOf).mapM (fun row : List (Cell τ) => row.mapM Cell.print) = .error failure
  induction ds with
  | nil => exact .inl ⟨nofun, [], rfl, .nil⟩
  | cons d ds ih =>
    rw [List.map_cons, List.mapM_cons]
    rcases print_rowOf (τ := τ) d with ⟨row, hrow, hsays⟩ | ⟨failure, hread, hrow⟩
    · rcases ih with ⟨hreadable, rows, hrows, hall⟩ | ⟨d', hd', failure, hread, hrows⟩
      · refine .inl ⟨?_, row :: rows, by rw [hrow, hrows]; rfl, .cons hsays hall⟩
        obtain ⟨message, ⟨t, ht, -⟩, -⟩ := hsays
        exact List.forall_mem_cons.2 ⟨⟨t, ht⟩, hreadable⟩
      · exact .inr ⟨d', List.mem_cons_of_mem _ hd', failure, hread, by rw [hrow, hrows]; rfl⟩
    · exact .inr ⟨d, List.mem_cons_self, failure, hread, by rw [hrow]; rfl⟩

/-- The characters of the line with the numbers. -/
theorem mem_countsText {s : Session} {c : Char} (h : c ∈ countsText s) :
    c.isDigit = true ∨ c ∈ " error(s), warning".toList := by
  have hdigit : ∀ {n : Nat}, c ∈ (toString n).toList → c.isDigit = true := by
    intro n hc
    have hc : c ∈ n.repr.toList := hc
    rw [Nat.toList_repr] at hc
    exact Nat.isDigit_of_mem_toDigits (by decide) (by decide) hc
  have herrors : " error(s), ".toList ⊆ " error(s), warning".toList := by decide
  have hwarnings : " warning(s)".toList ⊆ " error(s), warning".toList := by decide
  simp only [countsText, String.toList_append, List.mem_append] at h
  rcases h with ((h | h) | h) | h
  · exact .inl (hdigit h)
  · exact .inr (herrors h)
  · exact .inl (hdigit h)
  · exact .inr (hwarnings h)

/-- The character is printed as it is, also between the marks of a style. -/
structure IsVerbatim (c : Char) : Prop where
  unmarked : c ≠ '[' ∧ c ≠ ':'
  unescaped : c ≠ '\\'
  still : Rich.movesCursor c = false

theorem isVerbatim_of_mem_countsText {s : Session} {c : Char} (h : c ∈ countsText s) : IsVerbatim c := by
  rcases mem_countsText h with hdigit | hliteral
  · refine ⟨⟨?_, ?_⟩, ?_, StyledText.movesCursor_of_isDigit hdigit⟩ <;>
    · rintro rfl
      exact absurd hdigit (by decide)
  · have hall : " error(s), warning".toList.all
        (fun c => (c ≠ '[' ∧ c ≠ ':') ∧ c ≠ '\\' ∧ Rich.movesCursor c = false) = true := by decide
    obtain ⟨hunmarked, hunescaped, hstill⟩ := of_decide_eq_true (List.all_eq_true.1 hall c hliteral)
    exact ⟨hunmarked, hunescaped, hstill⟩

/-- The style of the line with the numbers. -/
theorem isStyle_summary : Rich.IsStyle "bold #191A1A" where
  begins := ⟨'b', by decide, by decide⟩
  inside c hc := by
    have hall : "bold #191A1A".toList.all (fun c => c ∉ ['[', ']', '\\', '=', ':']) = true := by
      decide
    exact of_decide_eq_true (List.all_eq_true.1 hall c hc)

theorem summary_eq (errors warnings : Nat) : summary errors warnings =
    "[" ++ "bold #191A1A" ++ "]" ++
      (toString errors ++ " error(s), " ++ toString warnings ++ " warning(s)") ++
      "[/" ++ "bold #191A1A" ++ "]" := by
  have hopen : "[bold #191A1A]" = "[" ++ "bold #191A1A" ++ "]" := by decide
  have hclose : " warning(s)[/bold #191A1A]" =
      " warning(s)" ++ ("[/" ++ "bold #191A1A" ++ "]") := by decide
  show "[bold #191A1A]" ++ toString errors ++ " error(s), " ++ toString warnings ++
    " warning(s)[/bold #191A1A]" = _
  rw [hopen, hclose]
  simp only [String.append_assoc]

/-- The numbers of a report are printed without the marks of their style. -/
theorem reads_summary (s : Session) :
    Rich.Reads τ (summary s.errorCount s.warningCount) (countsText s) := by
  obtain ⟨text, htext⟩ : ∃ text, text =
      toString s.errorCount ++ " error(s), " ++ toString s.warningCount ++ " warning(s)" := ⟨_, rfl⟩
  have hcounts : text.toList = countsText s := by rw [htext, countsText]
  have hplain : ∀ c ∈ text.toList, IsVerbatim c :=
    fun c hc => isVerbatim_of_mem_countsText (hcounts ▸ hc)
  obtain ⟨t, ht, hread⟩ := LawfulRich.read_enclosed (τ := τ) isStyle_summary
    (fun c hc => (hplain c hc).unmarked) fun hmem => (hplain _ hmem).unescaped rfl
  refine ⟨t, ?_, hread.trans (StyledText.visible_eq hcounts fun c hc => ?_)⟩
  · rw [summary_eq, ← htext, ht]
  · exact (isVerbatim_of_mem_countsText hc).still

/-- A report that can be made is printed to its end exactly if the marks in all messages can be
read. -/
theorem print_cases (s : Session) :
    let r : Report τ := { panel := panel s, findings := findingsOf s }
    ((∀ d ∈ s.diagnostics, Rich.Readable τ d.message) ∧ ∃ p, r.print = .ok p ∧ PrintsAlike s p) ∨
      ∃ d ∈ s.diagnostics, ∃ failure,
        (Rich.read d.message : Except Failure τ) = .error failure ∧ r.print = .error failure := by
  intro r
  by_cases hnone : s.diagnostics = []
  · have hprint : r.print = .ok { panel := panel s, findings := none } := by
      unfold Report.print
      rw [show r.findings = none from if_pos hnone]
    refine .inl ⟨by simp [hnone], _, hprint, ⟨rfl, fun _ => rfl, fun hsome => absurd hnone hsome⟩⟩
  · obtain ⟨line, hline, hplain⟩ := reads_summary (τ := τ) s
    have hfindings : r.findings = some {
        table := tableOf s.diagnostics, summary := summary s.errorCount s.warningCount } :=
      if_neg hnone
    have hprint : r.print = (tableOf s.diagnostics).print.map fun rows =>
        { panel := panel s, findings := some (rows, line) } := by
      unfold Report.print
      rw [hfindings]
      dsimp only
      rw [hline]
      cases (tableOf s.diagnostics : Table τ).print <;> rfl
    rw [hprint]
    rcases print_tableOf (τ := τ) s.diagnostics with
      ⟨hreadable, rows, hrows, hall⟩ | ⟨d, hd, failure, hread, hrows⟩
    · rw [hrows]
      exact .inl ⟨hreadable, _, rfl, ⟨rfl, fun hnil => absurd hnil hnone,
        fun _ => ⟨rows, line, rfl, hall, hplain⟩⟩⟩
    · rw [hrows]
      exact .inr ⟨d, hd, failure, hread, rfl⟩

/-- How a report of a session is printed. -/
structure Printing (s : Session) (r : Report τ) : Prop where
  printed : (∀ d ∈ s.diagnostics, Rich.Readable τ d.message) →
    ∃ p, r.print = .ok p ∧ PrintsAlike s p
  unread : (∃ d ∈ s.diagnostics, ¬ Rich.Readable τ d.message) → ∃ d ∈ s.diagnostics, ∃ failure,
    (Rich.read d.message : Except Failure τ) = .error failure ∧ r.print = .error failure
  unmarked : s.diagnostics ≠ [] → (∀ d ∈ s.diagnostics, Rich.Unmarked d.message) →
    ∃ p rows line, r.print = .ok p ∧ p.findings = some (rows, line) ∧
      rows.map (fun row => row.map Rich.plain) = s.diagnostics.map printedText ∧
      Rich.plain line = countsText s

theorem printing_of_findings (s : Session) :
    Printing s ({ panel := panel s, findings := findingsOf s } : Report τ) := by
  have hcases := print_cases (τ := τ) s
  dsimp only at hcases
  have hprinted : (∀ d ∈ s.diagnostics, Rich.Readable τ d.message) → ∃ p,
      ({ panel := panel s, findings := findingsOf s } : Report τ).print = .ok p ∧
        PrintsAlike s p := by
    intro hreadable
    rcases hcases with ⟨-, hprinted⟩ | ⟨d, hd, failure, hread, -⟩
    · exact hprinted
    · obtain ⟨t, ht⟩ := hreadable d hd
      exact nomatch ht.symm.trans hread
  refine ⟨hprinted, ?_, ?_⟩
  · rintro ⟨d, hd, hunreadable⟩
    rcases hcases with ⟨hreadable, -⟩ | hends
    · exact absurd (hreadable d hd) hunreadable
    · exact hends
  · intro hsome hunmarked
    obtain ⟨p, hp, halike⟩ := hprinted fun d hd => (hunmarked d hd).reads.imp fun _ h => h.1
    obtain ⟨rows, line, hfindings, hsays, hline⟩ := halike.findings hsome
    exact ⟨p, rows, line, hp, hfindings, map_plain_of_says hsays hunmarked, hline⟩

end

end View

end Workbench
