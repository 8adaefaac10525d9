import Workbench.View.Report

/-!
# Views as plain lines

Printed reports without their styles: the lines of the log, then a line for each diagnostic of the
table, then the numbers of errors and warnings.
-/

namespace Workbench.View

variable {τ : Type} [Rich τ]

/-- The characters of a text. -/
def plainText (t : τ) : String := String.ofList (Rich.plain t)

def Printed.lines (p : Printed τ) : List String :=
  plainText p.panel.content ::
    match p.findings with
    | none => []
    | some (rows, line) => rows.map (fun row => "  ".intercalate (row.map plainText)) ++ [plainText line]

end Workbench.View
