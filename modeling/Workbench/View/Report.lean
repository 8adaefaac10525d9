import Workbench.Session
import Workbench.View.Problems

/-!
# Reports

A report is what is printed after a command: the log in a panel and, if there are diagnostics, their
table and a line with their numbers.

* `View.gradient title` : a title whose colour changes from its beginning to its end;
* `View.report session` : the report of a session;
* `Report.print r` : what is printed for a report.
-/

namespace Workbench.View

/-- A part of a colour at a share of the way from `start` to `stop`. -/
def shade (start stop share : Float) : Nat := (start + (stop - start) * share).toUInt64.toNat

/-- The colour at a share of the way through a title, from cyan to a greyish blue. -/
def colorAt (share : Float) : String :=
  String.ofList ('#' :: Text.hex 2 (shade 69 159 share) ++ Text.hex 2 (shade 211 191 share) ++
    Text.hex 2 (shade 238 197 share))

section
variable {τ : Type} [Rich τ]

/-- A title whose colour changes from its beginning to its end. -/
def gradient (title : String) : τ :=
  let t : τ := Rich.of (" " ++ title ++ " ") "bold italic"
  (List.range (Rich.length t)).foldl
    (fun (t : τ) (i : Nat) =>
      Rich.stylize t (colorAt (i.toFloat / (Rich.length t).toFloat)) i (i + 1)) t

end

structure Panel (τ : Type) where
  content : τ
  title : τ
  titleAlign : String := "left"
  borderStyle : String := "#9FBFC5"
  /-- the empty lines above and below, and the empty columns at the sides -/
  padding : Nat × Nat := (1, 2)
  deriving DecidableEq, Repr

structure Findings (τ : Type) where
  table : Table τ
  /-- the line with the numbers, with marks of its style -/
  summary : String
  deriving DecidableEq, Repr

structure Report (τ : Type) where
  panel : Panel τ
  findings : Option (Findings τ)
  deriving DecidableEq, Repr

/-- The line with the numbers of diagnostics. -/
def summary (errors warnings : Nat) : String :=
  "[bold #191A1A]" ++ toString errors ++ " error(s), " ++ toString warnings ++
    " warning(s)[/bold #191A1A]"

/-- What is printed for a report: the panel, the rows of the table and the line with the numbers. -/
structure Printed (τ : Type) where
  panel : Panel τ
  findings : Option (List (List τ) × τ)

section
variable {τ : Type} [Rich τ]

/-- The log of a session in its frame. -/
def panel (s : Session) : Panel τ :=
  { content := Rich.of s.output.text, title := gradient "CPLE OUTPUT" }

def report (s : Session) : Except Failure (Report τ) :=
  if s.diagnostics = [] then .ok { panel := panel s, findings := none }
  else do
    let table ← table s.diagnostics
    return { panel := panel s, findings := some {
      table, summary := summary s.errorCount s.warningCount } }

def Report.print (r : Report τ) : Except Failure (Printed τ) :=
  match r.findings with
  | none => .ok { panel := r.panel, findings := none }
  | some f => do
    let rows ← f.table.print
    let line ← Rich.read f.summary
    return { panel := r.panel, findings := some (rows, line) }

end

end Workbench.View
