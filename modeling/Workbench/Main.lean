import Workbench.CommandLine.Run
import Workbench.Machine.Description
import Workbench.Screen
import Workbench.View.Plain
import Workbench.View.StyledText

/-!
# The program

The command line runs on a machine that is described by a line of JSON on standard input; an empty
line describes a machine without files. Where the command line opens the screen, the screen is shown
as it is at its start.
-/

namespace Workbench

section
variable {τ : Type} [Rich τ]

/-- The lines of a screen: its four views, one after the other. -/
def Screen.lines (s : Screen τ) : List String :=
  let view (t : Option τ) : List String := t.toList.map View.plainText
  view s.source ++ view s.problems ++ [s.output] ++ view s.barText

/-- The lines of the screen that is opened for a source. -/
def screenLines (m : Machine) (path : String) : List String :=
  match Settings.Store.load (Settings.Store.directoryFor m.home none) m with
  | (.error e, _) => [e.message]
  | (.ok settings, m) =>
    match Screen.make path { machine := m, settings } with
    | (.error e, _) => [e.message]
    | (.ok s, _) => (Screen.step .start (s : Screen StyledText)).2.lines

def CommandLine.Result.text (r : CommandLine.Result τ) : String :=
  let lines := r.reports.flatMap (fun x => x.2.lines) ++ r.screens.flatMap (screenLines r.machine)
  r.machine.printed ++ String.join (lines.map (· ++ "\n"))

/-- The number that a command line exits with. -/
def CommandLine.Result.code (r : CommandLine.Result τ) : UInt32 :=
  match r.ending with
  | .returned => 0
  | .exited code => code.toUInt32
  | .failed _ => 1

end

end Workbench

/-- Runs the command line on the machine that standard input describes. -/
def main (words : List String) : IO UInt32 := do
  let description ← (← IO.getStdin).getLine
  let value := match Workbench.Json.read description with
    | .ok v => v
    | .error _ => .null
  let r : Workbench.CommandLine.Result Workbench.StyledText :=
    Workbench.CommandLine.run (.describedBy value) .quit words
  IO.print r.text
  IO.eprint r.errors
  match r.ending with
  | .failed e => IO.eprintln e.message
  | _ => return r.code
  return r.code
