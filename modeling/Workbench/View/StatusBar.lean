import Workbench.Failure
import Workbench.Settings.Value

/-!
# The status bar

The bar shows the name of the file, the compiler arguments, the status of the last command and the
numbers of errors and warnings. What is empty or zero is left out, except the status.

* `StatusBar.update` : the bar with some of its parts set anew;
* `StatusBar.text` : what it shows.
-/

namespace Workbench

open Settings (Value)

structure StatusBar where
  file : String := ""
  arguments : Value := .text ""
  status : String := "idle"
  errors : Int := 0
  warnings : Int := 0

namespace StatusBar

/-- The parts of a bar that are to be set. -/
structure Update where
  file : Option String := none
  /-- null, too, leaves the arguments as they are -/
  arguments : Value := .null
  status : Option String := none
  errors : Option Int := none
  warnings : Option Int := none

/-- The bar with some of its parts set anew. -/
def update (b : StatusBar) (u : Update) : StatusBar :=
  { file := u.file.getD b.file
    arguments := match u.arguments with
      | .null => b.arguments
      | v => v
    status := u.status.getD b.status
    errors := u.errors.getD b.errors
    warnings := u.warnings.getD b.warnings }

/-- The parts that the bar shows, the arguments being shown as `arguments`. -/
def parts (b : StatusBar) (arguments : String) : List String :=
  (if b.file = "" then [] else ["📄 " ++ b.file]) ++
    (if b.arguments.holds then ["⚙  " ++ arguments] else []) ++
    ["● " ++ b.status] ++
    (if b.errors = 0 then [] else ["❌ " ++ Number.text b.errors ++ " error(s)"]) ++
    (if b.warnings = 0 then [] else ["⚠  " ++ Number.text b.warnings ++ " warning(s)"])

def text (b : StatusBar) : Except Failure String :=
  match b.arguments.display? with
  | some arguments => .ok ("  │  ".intercalate (b.parts arguments))
  | none => .error .numberTooLong

end StatusBar

end Workbench
