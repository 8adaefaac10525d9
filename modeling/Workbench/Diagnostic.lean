import Workbench.Record

/-!
# Diagnostics

A diagnostic is a message about a place of a source. Lines and columns count from zero.

* `Diagnostic.endColumn` : where the mark below the place ends;
* `errorCount`, `warningCount` : how many diagnostics of a list are of each severity;
* `groupByLine` : the diagnostics of each line, lines in the order in which they first come;
* `Collection` : the diagnostics of several documents.
-/

namespace Workbench

inductive Severity
  | error
  | warning
  deriving DecidableEq, Repr

def Severity.name : Severity → String
  | .error => "error"
  | .warning => "warning"

/-- A message about a place of a source. -/
structure Diagnostic where
  line : Int
  column : Int
  severity : Severity
  message : String
  deriving DecidableEq, Repr

namespace Diagnostic

/-- What diagnostics of compilers are marked with. -/
def origin : String := "cple"

def markWidth : Int := 20

def endColumn (d : Diagnostic) : Int := d.column + markWidth

def isError (d : Diagnostic) : Bool := d.severity = .error

def isWarning (d : Diagnostic) : Bool := d.severity = .warning

/-- How many diagnostics are errors. -/
def errorCount (ds : List Diagnostic) : Nat := ds.countP isError

/-- How many diagnostics are warnings. -/
def warningCount (ds : List Diagnostic) : Nat := ds.countP isWarning

def hasErrors (ds : List Diagnostic) : Bool := ds.any isError

theorem errorCount_add_warningCount (ds : List Diagnostic) :
    errorCount ds + warningCount ds = ds.length := by
  induction ds with
  | nil => rfl
  | cons d ds ih =>
    rw [errorCount, warningCount] at ih ⊢
    cases h : d.severity <;>
      simp only [List.countP_cons, isError, isWarning, h, List.length_cons, decide_true,
        reduceCtorEq, decide_false, if_true, Bool.false_eq_true, if_false] <;>
      omega

/-- The diagnostics of a line, in their order. -/
def forLine (ds : List Diagnostic) (line : Int) : List Diagnostic :=
  ds.filter fun d => d.line = line

/-- Diagnostics under the lines they are about. -/
abbrev Groups := List (Int × List Diagnostic)

/-- The groups with a diagnostic put at the end of the group of its line. -/
def Groups.add (d : Diagnostic) : Groups → Groups
  | [] => [(d.line, [d])]
  | (line, ds) :: rest =>
    if line = d.line then (line, ds ++ [d]) :: rest else (line, ds) :: Groups.add d rest

/-- The group of a line, empty if it has none. -/
def Groups.get : Groups → Int → List Diagnostic
  | [], _ => []
  | (line', ds) :: rest, line => if line' = line then ds else Groups.get rest line

/-- The diagnostics of each line, lines in the order in which they first come. -/
def groupByLine (ds : List Diagnostic) : Groups := ds.foldl (fun groups d => groups.add d) []

/-- An error if there is one among the diagnostics, a warning otherwise. -/
def worst (ds : List Diagnostic) : Severity := if hasErrors ds then .error else .warning

end Diagnostic

/-- The diagnostics of several documents. -/
abbrev Collection := Record String (List Diagnostic)

def Collection.of (c : Collection) (document : String) : List Diagnostic :=
  (Record.get? c document).getD []

end Workbench
