import Workbench.Proofs.Action
import Workbench.Proofs.Diagnostic.Extract
import Workbench.Proofs.Session
import Workbench.Proofs.View.Report
import Workbench.Screen

/-!
# The views of diagnostics agree

* `problemText d` : a row of the list of problems, without its styles;
* `problems_eq_ok`, `problems_eq_error` : the list, and when there is none;
* `splitOn_problemsOf` : the list has one row for each diagnostic of an output;
* `views_of_published` : after an output was published, the list, the table and the report show the
  same diagnostics with the same numbers of errors and warnings, or there is none of the three; what
  is printed says the same if the marks in the messages can be read.
-/

namespace Workbench

open Number (digitBound)

namespace View

open Diagnostic (IsShowable extract)
open Rich (visible)

/-! ## Rows of the list -/

/-- A diagnostic as a row of the list, without its styles. -/
def problemText (d : Diagnostic) : List Char :=
  d.severity.mark.toList ++ ' ' :: (Number.text (d.line + 1)).toList ++
    ':' :: (Number.text (d.column + 1)).toList ++ ' ' :: d.severity.name.toList ++
      ' ' :: visible d.message

section
variable {τ : Type} [Rich τ]

/-- A row of the list, for a diagnostic that can be shown. -/
def problemOf (d : Diagnostic) : τ :=
  Rich.add (Rich.add (Rich.add (Rich.add (Rich.of "") (d.severity.mark ++ " ") d.severity.ink)
    (Number.text (d.line + 1) ++ ":" ++ Number.text (d.column + 1) ++ " ") "dim")
      (d.severity.name ++ " ") d.severity.ink) d.message

theorem problem_eq_ok {d : Diagnostic} (h : IsShowable d) :
    (problem d : Except Failure τ) = .ok (problemOf d) := by
  unfold problem
  rw [fromOne_eq_ok h.line, fromOne_eq_ok h.column]
  rfl

theorem problem_eq_error {d : Diagnostic} (h : ¬ IsShowable d) :
    (problem d : Except Failure τ) = .error .numberTooLong := by
  unfold problem
  by_cases hline : (d.line + 1).natAbs < digitBound
  · rw [fromOne_eq_ok hline, fromOne_eq_error fun hcolumn => h ⟨hline, hcolumn⟩]
    rfl
  · rw [fromOne_eq_error hline]
    rfl

end

/-- The numbers of a place are shown as they are. -/
theorem visible_place (line column : Int) :
    visible (Number.text line ++ ":" ++ Number.text column ++ " ") =
      (Number.text line).toList ++ ':' :: (Number.text column).toList ++ [' '] := by
  have htext : (Number.text line ++ ":" ++ Number.text column ++ " ").toList =
      (Number.text line).toList ++ ':' :: (Number.text column).toList ++ [' '] := by
    simp only [String.toList_append, List.append_assoc]
    rfl
  have hnumber : ∀ {n : Int} {c : Char}, c ∈ (Number.text n).toList →
      Rich.movesCursor c = false := by
    intro n c hc
    rcases Number.isDigit_or_minus_of_mem_text hc with hdigit | rfl
    · exact StyledText.movesCursor_of_isDigit hdigit
    · decide
  refine StyledText.visible_eq htext fun c hc => ?_
  simp only [List.mem_append, List.mem_cons, List.not_mem_nil, or_false] at hc
  rcases hc with (hc | rfl | hc) | rfl
  · exact hnumber hc
  · decide
  · exact hnumber hc
  · decide

section
variable {τ : Type} [Rich τ] [LawfulRich τ]

theorem plain_problemOf (d : Diagnostic) : Rich.plain (problemOf d : τ) = problemText d := by
  have hnothing : visible "" = [] := rfl
  have hmark : visible (d.severity.mark ++ " ") = d.severity.mark.toList ++ [' '] := by
    cases d.severity <;> decide
  have hname : visible (d.severity.name ++ " ") = d.severity.name.toList ++ [' '] := by
    cases d.severity <;> decide
  simp only [problemOf, problemText, LawfulRich.plain_add, LawfulRich.plain_of, hnothing, hmark,
    hname, visible_place, List.append_assoc, List.nil_append, List.cons_append]

theorem style_problemOf (d : Diagnostic) : Rich.style (problemOf d : τ) = "" := by
  simp only [problemOf, LawfulRich.style_add, LawfulRich.style_of]

end

theorem lineFeed_not_mem_problemText {d : Diagnostic} (h : Diagnostic.OneLine d.message.toList) :
    '\n' ∉ problemText d := by
  have hmark : '\n' ∉ d.severity.mark.toList := by cases d.severity <;> decide
  have hname : '\n' ∉ d.severity.name.toList := by cases d.severity <;> decide
  have hnumber : ∀ n : Int, '\n' ∉ (Number.text n).toList := by
    intro n hmem
    rcases Number.isDigit_or_minus_of_mem_text hmem with hdigit | hminus
    · exact absurd hdigit (by decide)
    · exact absurd hminus (by decide)
  simp [problemText, hmark, hname, hnumber, StyledText.not_mem_visible h]

/-! ## The list -/

section
variable {τ : Type} [Rich τ]

/-- The list of diagnostics that can be shown. -/
def problemsOf (ds : List Diagnostic) : τ :=
  if ds = [] then noProblems else Rich.joinWith "\n" (ds.map problemOf)

theorem problems_eq_ok {ds : List Diagnostic} (h : ∀ d ∈ ds, IsShowable d) :
    (problems ds : Except Failure τ) = .ok (problemsOf ds) := by
  unfold problems problemsOf
  rw [mapM_eq_ok problem_eq_ok h]
  split <;> rfl

theorem problems_eq_error {ds : List Diagnostic} (h : ∃ d ∈ ds, ¬ IsShowable d) :
    (problems ds : Except Failure τ) = .error .numberTooLong := by
  obtain ⟨d, hd, hd'⟩ := h
  unfold problems
  rw [if_neg (List.ne_nil_of_mem hd), mapM_eq_error problem_eq_ok problem_eq_error ⟨d, hd, hd'⟩]
  rfl

/-- Each diagnostic has a row of its own, as its message holds no line feed. -/
theorem splitOn_problemsOf [LawfulRich τ] {ds : List Diagnostic} (hne : ds ≠ [])
    (h : ∀ d ∈ ds, Diagnostic.OneLine d.message.toList) :
    Text.splitOn '\n' (Rich.plain (problemsOf ds : τ)) = ds.map problemText := by
  obtain ⟨rows, hrows⟩ : ∃ rows : List StyledText,
      rows = (ds.map (problemOf : Diagnostic → τ)).map Rich.seen := ⟨_, rfl⟩
  have hstyle : ∀ t ∈ rows, t.style = "" := by
    intro t ht
    rw [hrows, List.map_map] at ht
    obtain ⟨d, -, rfl⟩ := List.mem_map.1 ht
    exact style_problemOf d
  have hplain : rows.map StyledText.plain = ds.map problemText := by
    rw [hrows, List.map_map, List.map_map]
    exact List.map_congr_left fun d _ => plain_problemOf d
  have hfeed : ∀ text ∈ ds.map problemText, '\n' ∉ text := by
    intro text htext
    obtain ⟨d, hd, rfl⟩ := List.mem_map.1 htext
    exact lineFeed_not_mem_problemText (h d hd)
  have hseen : Rich.plain (problemsOf ds : τ) = (Rich.joinWith "\n" rows).plain := by
    rw [problemsOf, if_neg hne, hrows, ← Rich.seen_joinWith]
    rfl
  rw [hseen, StyledText.plain_joinWith hstyle, hplain,
    Text.splitOn_joinWith (mt List.map_eq_nil_iff.1 hne) hfeed]

end

/-! ## Numbers of rows -/

/-- A row of the list begins with the mark of a severity. -/
def TextShows (severity : Severity) (text : List Char) : Prop := severity.mark.toList <+: text

instance (severity : Severity) : DecidablePred (TextShows severity) := fun text =>
  inferInstanceAs (Decidable (severity.mark.toList <+: text))

/-- The characters of a cell, with the marks in it. -/
def cellText {τ : Type} [Rich τ] : Cell τ → List Char
  | .styled t => Rich.plain t
  | .marked s => s.toList

/-- A row of a table has the mark and the name of a severity. -/
def RowShows (severity : Severity) (row : List (List Char)) : Prop :=
  row[0]? = some severity.mark.toList ∧ row[3]? = some severity.name.toList

instance (severity : Severity) : DecidablePred (RowShows severity) := fun row =>
  inferInstanceAs (Decidable (row[0]? = _ ∧ row[3]? = _))

/-- The characters of a table, row by row. -/
def tableTexts {τ : Type} [Rich τ] (t : Table τ) : List (List (List Char)) :=
  t.rows.map fun row => row.map cellText

theorem textShows_problemText {severity : Severity} {d : Diagnostic} :
    TextShows severity (problemText d) ↔ d.severity = severity := by
  have hmark : d.severity.mark.toList <+: problemText d := by simp [problemText]
  constructor
  · intro h
    have hlength : severity.mark.toList.length = d.severity.mark.toList.length := by
      cases severity <;> cases d.severity <;> decide
    -- all marks are of one length, so that no two of them can begin the same row
    have hsame : severity.mark.toList = d.severity.mark.toList :=
      (List.prefix_of_prefix_length_le h hmark (Nat.le_of_eq hlength)).eq_of_length hlength
    revert hsame
    cases severity <;> cases d.severity <;> decide
  · rintro rfl
    exact hmark

/-- The characters of the row of a diagnostic in a table. -/
def tableRowText (d : Diagnostic) : List (List Char) :=
  [d.severity.mark.toList, (Number.text (d.line + 1)).toList, (Number.text (d.column + 1)).toList,
    d.severity.name.toList, d.message.toList]

theorem map_cellText_rowOf {τ : Type} [Rich τ] [LawfulRich τ] (d : Diagnostic) :
    (rowOf d : List (Cell τ)).map cellText = tableRowText d := by
  obtain ⟨hmark, hname⟩ := plain_of_severity (τ := τ) d.severity
  simp only [rowOf, tableRowText, List.map_cons, List.map_nil, cellText, hmark, hname]

theorem rowShows_tableRowText {severity : Severity} {d : Diagnostic} :
    RowShows severity (tableRowText d) ↔ d.severity = severity := by
  constructor
  · rintro ⟨hmark, -⟩
    have hsame : d.severity.mark.toList = severity.mark.toList := Option.some.inj hmark
    revert hsame
    cases severity <;> cases d.severity <;> decide
  · rintro rfl
    exact ⟨rfl, rfl⟩

/-- As many rows of the list show a severity as there are diagnostics of it. -/
theorem countP_textShows (severity : Severity) (ds : List Diagnostic) :
    (ds.map problemText).countP (decide <| TextShows severity ·) =
      ds.countP fun d => d.severity = severity := by
  rw [List.countP_map]
  exact List.countP_congr fun d _ => by simp [textShows_problemText]

theorem countP_rowShows (severity : Severity) (ds : List Diagnostic) :
    (ds.map tableRowText).countP (decide <| RowShows severity ·) =
      ds.countP fun d => d.severity = severity := by
  rw [List.countP_map]
  exact List.countP_congr fun d _ => by simp [rowShows_tableRowText]

end View

/-! ## The list on the screen -/

namespace Screen

variable {τ : Type}

/-- The list and the number of problems are the same. -/
def SameList (s t : Screen τ) : Prop := t.problems = s.problems ∧ t.problemCount = s.problemCount

theorem SameList.trans {s t u : Screen τ} (h : SameList s t) (h' : SameList t u) : SameList s u :=
  ⟨h'.1.trans h.1, h'.2.trans h.2⟩

variable [Rich τ]

theorem sameList_updateBar (u : StatusBar.Update) :
    Action.Ensures SameList (updateBar u : Action (Screen τ) Unit) := by
  refine Action.Ensures.bind SameList.trans (fun _ => ⟨rfl, rfl⟩) fun _ => ?_
  refine Action.Ensures.bind SameList.trans (fun _ => ⟨rfl, rfl⟩) fun _ => ?_
  exact Action.Ensures.bind SameList.trans (fun _ => ⟨rfl, rfl⟩) fun _ _ => ⟨rfl, rfl⟩

/-- The list is shown, however the status bar turns out. -/
theorem problems_refresh {session : Session} {list : τ}
    (h : View.problems session.diagnostics = .ok list) (s : Screen τ) :
    (refresh session s).2.problems = some list ∧
      (refresh session s).2.problemCount = session.diagnostics.length := by
  unfold refresh
  simp only [Action.bind_apply, Action.modify_apply, Action.ask_apply, h]
  exact sameList_updateBar _ _

theorem refresh_eq_error {session : Session} {failure : Failure}
    (h : (View.problems session.diagnostics : Except Failure τ) = .error failure) (s : Screen τ) :
    (refresh session s).1 = .error failure := by
  unfold refresh
  simp only [Action.bind_apply, Action.modify_apply, Action.ask_apply, h]

end Screen

/-! ## All views of an output -/

theorem Session.diagnostics_publish (s : Session) (output : String) :
    (s.publish s.path output).1.diagnostics =
      if Diagnostic.extract Diagnostic.Shape.all output = [] then s.diagnostics
      else Diagnostic.extract Diagnostic.Shape.all output := by
  split
  · next hnil => rw [Step.publish_of_extract_eq_nil s s.path hnil]
  · next hne => exact Step.of_apply_of_puts (.publish rfl hne) s

namespace View

open Diagnostic (IsShowable extract)

section
variable {τ : Type} [Rich τ]

/-- A list, a table and a report that show the diagnostics of a session alike. -/
structure Alike (s : Session) (list : τ) (t : Table τ) (r : Report τ) : Prop where
  listRows : s.diagnostics ≠ [] →
    Text.splitOn '\n' (Rich.plain list) = s.diagnostics.map problemText
  tableRows : tableTexts t = s.diagnostics.map tableRowText
  findings : r.findings = if s.diagnostics = [] then none
    else some { table := t, summary := summary s.errorCount s.warningCount }
  errors : s.errorCount = (tableTexts t).countP (decide <| RowShows .error ·)
  warnings : s.warningCount = (tableTexts t).countP (decide <| RowShows .warning ·)
  listErrors : s.diagnostics ≠ [] →
    s.errorCount = (Text.splitOn '\n' (Rich.plain list)).countP (decide <| TextShows .error ·)
  listWarnings : s.diagnostics ≠ [] →
    s.warningCount = (Text.splitOn '\n' (Rich.plain list)).countP (decide <| TextShows .warning ·)
  sum : s.errorCount + s.warningCount = t.rows.length

variable [LawfulRich τ]

theorem tableTexts_tableOf (ds : List Diagnostic) :
    tableTexts (tableOf ds : Table τ) = ds.map tableRowText := by
  show (ds.map (rowOf : Diagnostic → List (Cell τ))).map (fun row => row.map cellText) = _
  rw [List.map_map]
  exact List.map_congr_left fun d _ => map_cellText_rowOf d

theorem exists_alike (τ : Type) [Rich τ] [LawfulRich τ] {s : Session}
    (h : ∀ d ∈ s.diagnostics, IsShowable d)
    (hline : ∀ d ∈ s.diagnostics, Diagnostic.OneLine d.message.toList) :
    ∃ (list : τ) (t : Table τ) (r : Report τ),
      problems s.diagnostics = .ok list ∧ table s.diagnostics = .ok t ∧ report s = .ok r ∧
        Alike s list t r ∧ Printing s r := by
  refine ⟨_, _, _, problems_eq_ok h, table_eq_ok h, report_eq_ok h, ?_, printing_of_findings s⟩
  exact
    { listRows := fun hne => splitOn_problemsOf hne hline
      tableRows := tableTexts_tableOf _
      findings := rfl
      errors := by
        rw [tableTexts_tableOf, countP_rowShows]
        rfl
      warnings := by
        rw [tableTexts_tableOf, countP_rowShows]
        rfl
      listErrors := fun hne => by
        rw [splitOn_problemsOf hne hline, countP_textShows]
        rfl
      listWarnings := fun hne => by
        rw [splitOn_problemsOf hne hline, countP_textShows]
        rfl
      sum := (Diagnostic.errorCount_add_warningCount _).trans (List.length_map _).symm }

end

/-- An output is published for the open document. If all of its diagnostics can be shown, the list
has a row for each of them, the table has their rows in the same order, and the report has the table
if there are any; its numbers are those of the rows of each severity. What is printed of the report
says the same, with what is printed for each message; a message with marks that cannot be read is in
the way of printing. If a diagnostic is about the last column that can be read, there is no list, no
table and no report. -/
theorem views_of_published (τ : Type) [Rich τ] [LawfulRich τ] (s : Session) (output : String)
    (hold : extract Diagnostic.Shape.all output = [] → s.diagnostics = []) :
    let s' := (s.publish s.path output).1
    s'.diagnostics = extract Diagnostic.Shape.all output ∧
      ((∀ d ∈ s'.diagnostics, d.column + 1 ≠ digitBound) →
        ∃ (list : τ) (t : Table τ) (r : Report τ),
          problems s'.diagnostics = .ok list ∧ table s'.diagnostics = .ok t ∧ report s' = .ok r ∧
          Alike s' list t r ∧ Printing s' r ∧
          ∀ screen, (Screen.refresh s' screen).2.problems = some list ∧
            (Screen.refresh s' screen).2.problemCount = s'.diagnostics.length) ∧
      ((∃ d ∈ s'.diagnostics, d.column + 1 = digitBound) →
        (problems s'.diagnostics : Except Failure τ) = .error .numberTooLong ∧
          (table s'.diagnostics : Except Failure (Table τ)) = .error .numberTooLong ∧
          (report s' : Except Failure (Report τ)) = .error .numberTooLong ∧
          ∀ screen : Screen τ, (Screen.refresh s' screen).1 = .error .numberTooLong) := by
  intro s'
  have hextract : s'.diagnostics = extract Diagnostic.Shape.all output := by
    rw [Session.diagnostics_publish]
    split
    · next hnil => rw [hold hnil, hnil]
    · rfl
  have hread : ∀ d ∈ s'.diagnostics, Diagnostic.IsRead d :=
    fun d hd => Diagnostic.isRead_of_extract (hextract ▸ hd)
  have hline : ∀ d ∈ s'.diagnostics, Diagnostic.OneLine d.message.toList :=
    fun d hd => Diagnostic.oneLine_of_extract (hextract ▸ hd)
  refine ⟨hextract, fun hcolumns => ?_, fun ⟨d, hd, hcolumn⟩ => ?_⟩
  · obtain ⟨list, t, r, hproblems, htable, hreport, halike, hprinting⟩ :=
      exists_alike τ (fun d hd => (hread d hd).isShowable_iff.2 (hcolumns d hd)) hline
    exact ⟨list, t, r, hproblems, htable, hreport, halike, hprinting,
      fun screen => Screen.problems_refresh hproblems screen⟩
  · have hhidden : ∃ d ∈ s'.diagnostics, ¬ IsShowable d :=
      ⟨d, hd, fun hshown => (hread d hd).isShowable_iff.1 hshown hcolumn⟩
    have hproblems := problems_eq_error (τ := τ) hhidden
    exact ⟨hproblems, table_eq_error hhidden, report_eq_error hhidden,
      fun screen => Screen.refresh_eq_error hproblems screen⟩

/-- An error about the second column of the first line. -/
theorem views_of_second_column :
    let output := (Diagnostic.messageAt 1).text
    let s : Session := { path := "a.cple" }
    let s' := (s.publish s.path output).1
    (extract Diagnostic.Shape.all output = [] → s.diagnostics = []) ∧
      s'.diagnostics = [⟨0, 1, .error, "x"⟩] ∧
      ∃ (list : StyledText) (t : Table StyledText) (r : Report StyledText),
        problems s'.diagnostics = .ok list ∧ table s'.diagnostics = .ok t ∧ report s' = .ok r ∧
        Alike s' list t r ∧ Text.splitOn '\n' list.plain = ["● 1:2 error x".toList] ∧
        ∃ p rows line, r.print = .ok p ∧ p.findings = some (rows, line) ∧
          rows.map (fun row => row.map Rich.plain) =
            [["●".toList, "1".toList, "2".toList, "error".toList, "x".toList]] ∧
          Rich.plain line = "1 error(s), 0 warning(s)".toList := by
  intro output s s'
  have hone : 1 < digitBound := Number.lt_digitBound (k := 1) (by decide) (by decide)
  have hold : extract Diagnostic.Shape.all output = [] → s.diagnostics = [] := fun _ => rfl
  obtain ⟨hextract, hviews, -⟩ := views_of_published StyledText s output hold
  have hds : s'.diagnostics = [⟨0, 1, .error, "x"⟩] :=
    hextract.trans (Diagnostic.extract_messageAt hone)
  have hcolumns : ∀ d ∈ s'.diagnostics, d.column + 1 ≠ digitBound := by
    have htwo : 2 < digitBound := Number.lt_digitBound (k := 1) (by decide) (by decide)
    rw [hds]
    intro d hd hcolumn
    obtain rfl := List.mem_singleton.1 hd
    have hsucc : (1 + 1 : Int) = digitBound := hcolumn
    omega
  have hunmarked : ∀ d ∈ s'.diagnostics, Rich.Unmarked d.message := by
    rw [hds]
    intro d hd
    obtain rfl := List.mem_singleton.1 hd
    exact List.forall_mem_singleton.2 (by decide)
  obtain ⟨list, t, r, hlist, htable, hreport, halike, hprinting, -⟩ := hviews hcolumns
  have hrows := halike.listRows
  obtain ⟨p, rows, line, hp, hfindings, hsays, hline⟩ :=
    hprinting.unmarked (hds ▸ List.cons_ne_nil _ _) hunmarked
  rw [hds] at hrows hsays
  refine ⟨hold, hds, list, t, r, hlist, htable, hreport, halike,
    (hrows (List.cons_ne_nil _ _)).trans (by decide), p, rows, line, hp, hfindings,
    hsays.trans (by decide), hline.trans ?_⟩
  rw [countsText, Session.errorCount, Session.warningCount, hds]
  decide

/-- An error about the last column that can be read is published, and then none of the views can be
made. -/
theorem no_view_of_last_column :
    let p := Diagnostic.messageAt (digitBound - 1)
    let s := (Session.publish { path := "a.cple" } "a.cple" p.text).1
    s.diagnostics = [p.diagnostic] ∧
      (problems s.diagnostics : Except Failure StyledText) = .error .numberTooLong ∧
      (table s.diagnostics : Except Failure (Table StyledText)) = .error .numberTooLong ∧
      (report s : Except Failure (Report StyledText)) = .error .numberTooLong := by
  intro p s
  have hlast : digitBound - 1 < digitBound := Nat.sub_lt Number.digitBound_pos Nat.zero_lt_one
  have hds : s.diagnostics = [p.diagnostic] := by
    rw [← Diagnostic.extract_messageAt hlast]
    refine (Session.diagnostics_publish { path := "a.cple" } p.text).trans (if_neg ?_)
    rw [Diagnostic.extract_messageAt hlast]
    exact List.cons_ne_nil _ _
  have hhidden : ∃ d ∈ s.diagnostics, ¬ IsShowable d := by
    refine ⟨p.diagnostic, hds ▸ List.mem_singleton_self _, fun hshown => ?_⟩
    have hcolumn := hshown.column
    rw [Diagnostic.last_column_succ, Int.natAbs_natCast] at hcolumn
    exact Nat.lt_irrefl _ hcolumn
  exact ⟨hds, problems_eq_error hhidden, table_eq_error hhidden, report_eq_error hhidden⟩

end View

end Workbench
