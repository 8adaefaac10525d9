import Workbench.Failure
import Workbench.View.Source

/-!
# The views of diagnostics

Diagnostics are shown as a list or as a table. Both show lines and columns from one on. A number
with too many digits cannot be shown, and then there is no view.

* `View.problem d` : a row of the list, and `View.problems ds` the list;
* `View.table ds` : the table. Some of its cells are strings, which are read when it is printed.
-/

namespace Workbench.View

/-- A number as it is shown, counted from one. -/
def fromOne (n : Int) : Except Failure String :=
  match Number.text? (n + 1) with
  | some t => .ok t
  | none => .error .numberTooLong

section
variable {τ : Type} [Rich τ]

/-- A diagnostic as a row of the list. -/
def problem (d : Diagnostic) : Except Failure τ := do
  let line ← fromOne d.line
  let column ← fromOne d.column
  let t : τ := Rich.of ""
  let t := Rich.add t (d.severity.mark ++ " ") d.severity.ink
  let t := Rich.add t (line ++ ":" ++ column ++ " ") "dim"
  let t := Rich.add t (d.severity.name ++ " ") d.severity.ink
  return Rich.add t d.message

/-- What the list shows if there is nothing to show. -/
def noProblems : τ := Rich.of "No problems" "dim"

def problems (ds : List Diagnostic) : Except Failure τ :=
  if ds = [] then .ok noProblems
  else do return Rich.joinWith "\n" (← ds.mapM problem)

end

inductive Cell (τ : Type)
  | styled (t : τ)
  /-- a string, which may hold marks of styles -/
  | marked (s : String)
  deriving DecidableEq, Repr

structure Column where
  header : String
  toRight : Bool := false
  noWrap : Bool := true
  deriving DecidableEq, Repr

structure Table (τ : Type) where
  title : String
  titleStyle : String
  headerStyle : String
  /-- does the table take all the width there is? -/
  expand : Bool
  columns : List Column
  rows : List (List (Cell τ))
  deriving DecidableEq, Repr

section
variable {τ : Type} [Rich τ]

def tableRow (d : Diagnostic) : Except Failure (List (Cell τ)) := do
  let line ← fromOne d.line
  let column ← fromOne d.column
  return [.styled (Rich.of d.severity.mark d.severity.ink), .marked line, .marked column,
    .styled (Rich.of d.severity.name d.severity.ink), .marked d.message]

def table (ds : List Diagnostic) : Except Failure (Table τ) := do
  return {
    title := "Diagnostics"
    titleStyle := "bold #94bfc1"
    headerStyle := "bold #45d3ee"
    expand := true
    columns := [{ header := "" }, { header := "Line", toRight := true },
      { header := "Col", toRight := true }, { header := "Severity" },
      { header := "Message", noWrap := false }]
    rows := ← ds.mapM tableRow }

/-- What is printed for a cell. -/
def Cell.print : Cell τ → Except Failure τ
  | .styled t => .ok t
  | .marked s => Rich.read s

/-- What is printed for the rows of a table. -/
def Table.print (t : Table τ) : Except Failure (List (List τ)) :=
  t.rows.mapM fun row => row.mapM Cell.print

end

end Workbench.View
