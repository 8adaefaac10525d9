import Workbench.Diagnostic
import Workbench.View.Rich

/-!
# The view of a source

Each line of a source is a row: its number, the mark of the worst diagnostic that it has, and the
line itself with the places of its diagnostics underlined.

* `Severity.mark`, `Severity.ink`, `Severity.paper` : how severities look;
* `View.underlined line ds` : a line with the places of diagnostics underlined;
* `View.source lines ds` : the whole view.
-/

namespace Workbench

namespace Severity

def mark : Severity → String
  | .error => "●"
  | .warning => "▲"

/-- The style of what is written for a severity. -/
def ink : Severity → String
  | .error => "bold #a80000"
  | .warning => "bold #8a6d00"

/-- The style of the ground behind the number of a line. -/
def paper : Severity → String
  | .error => "on #f8d7da"
  | .warning => "on #fff3cd"

end Severity

namespace View

section
variable {τ : Type} [Rich τ]

/-- A text with the place of a diagnostic underlined. Places are cut at the end of the line, of
which `length` characters were read; the text may show fewer of them. -/
def underline (length : Nat) (t : τ) (d : Diagnostic) : τ :=
  let start := min d.column length
  let stop := min d.endColumn length
  if start < stop then Rich.stylize t (d.severity.ink ++ " underline") start stop else t

/-- A line with the places of diagnostics underlined. -/
def underlined (line : String) (ds : List Diagnostic) : τ :=
  ds.foldl (underline line.length) (Rich.of line)

/-- A number at the right end of a field. -/
def rightAligned (width n : Nat) : String :=
  let digits := toString n
  String.ofList (List.replicate (width - digits.length) ' ') ++ digits

/-- A text with what stands before a line after it. -/
def addGutter (t : τ) (width number : Nat) (ds : List Diagnostic) : τ :=
  let text := rightAligned width number ++ " "
  if ds = [] then Rich.add (Rich.add t text "dim") "  "
  else
    let worst := Diagnostic.worst ds
    Rich.add (Rich.add t text ("dim " ++ worst.paper)) (worst.mark ++ " ") worst.ink

/-- A text with the row of a line after it. -/
def addRow (width : Nat) (groups : Diagnostic.Groups) (t : τ) (index : Nat) (line : String) : τ :=
  let ds := groups.get index
  Rich.append (addGutter t width (index + 1) ds) (underlined line ds)

/-- A text with the rows of lines after it, a line feed between each two. -/
def addRows (width : Nat) (groups : Diagnostic.Groups) (t : τ) : Nat → List String → τ
  | _, [] => t
  | index, [line] => addRow width groups t index line
  | index, line :: rest =>
    addRows width groups (Rich.add (addRow width groups t index line) "\n") (index + 1) rest

def numberWidth (lines : List String) : Nat := (toString lines.length).length

/-- The view of a source. A diagnostic about no line of it is not in the view. -/
def source (lines : List String) (ds : List Diagnostic) : τ :=
  addRows (numberWidth lines) (Diagnostic.groupByLine ds) (Rich.of "") 0 lines

end

end View

end Workbench
