import Workbench.CommandLine.Arguments
import Workbench.Engine.Probe
import Workbench.View.Report

/-!
# Running the command line

A command line either asks for one command, whose report is printed, or opens the screen for a
source.

* `usage`, `help` : what is printed about the command line itself;
* `oneShot` : one command with its report;
* `run` : the whole of it, with what came out.
-/

namespace Workbench.CommandLine

/-- The line that shows how the program is called. -/
def usage : String :=
  "usage: cplebolt [-h] [--compile | --run | --check | --debug] [file]\n"

/-- The text that explains how the program is called. -/
def help : String :=
  usage ++ "\n" ++
    "cplebolt: build, check and run CPLE programs\n" ++ "\n" ++
    "positional arguments:\n" ++
    "  file        CPLE source file (.cple)\n" ++ "\n" ++
    "options:\n" ++
    "  -h, --help  show this help message and exit\n" ++
    "  --compile   Compile once and print diagnostics\n" ++
    "  --run       Compile, then run the compiled program\n" ++
    "  --check     Check syntax only\n" ++
    "  --debug     Show which files the compiler creates\n"

/-- How a screen was left. -/
inductive Leaving
  | quit
  | interrupted
  | crashed (message : String)
  deriving DecidableEq, Repr

/-- How a command line ended. -/
inductive Ending
  | returned
  | exited (code : Nat)
  | failed (e : Failure)
  deriving DecidableEq, Repr

/-- What came out of a command line. -/
structure Result (τ : Type) where
  ending : Ending
  machine : Machine
  /-- what was printed about errors -/
  errors : String := ""
  /-- the sources for which a screen was opened -/
  screens : List String := []
  /-- the reports that were printed to their end, with the sessions that they report on -/
  reports : List (Session × View.Printed τ) := []

/-- The command of a mode. The answer says whether all went well. After a run that has a result, it
is the last execution that is asked. -/
def perform : Mode → Action Engine Bool
  | .compile => Engine.compile
  | .check => Engine.check
  | .probe => Engine.probe
  | .run => do
    let x ← Engine.run
    let e ← get
    return x.isSome && e.session.lastExecution.any fun y => !y.failed

section
variable {τ : Type} [Rich τ]

/-- The report of a session is made and printed. -/
def printReport (s : Session) : Except Failure (View.Printed τ) := do
  let r : View.Report τ ← View.report s
  r.print

/-- A command with its report. The settings are loaded first. -/
def oneShot (mode : Mode) (path : String) :
    Action Machine (Bool × Session × View.Printed τ) := fun m =>
  match Settings.Store.load (Settings.Store.directoryFor m.home none) m with
  | (.error e, m) => (.error e, m)
  | (.ok settings, m) =>
    match Engine.make path { machine := m, settings } with
    | (.error e, setup) => (.error e, setup.machine)
    | (.ok engine, _) =>
      match perform mode engine with
      | (.error e, engine) => (.error e, engine.setup.machine)
      | (.ok good, engine) =>
        ((printReport engine.session).map fun p => (good, engine.session, p),
          engine.setup.machine)

/-- Prints lines and exits with an error. -/
def complain (m : Machine) (lines : List String) : Result τ :=
  { ending := .exited 1, machine := lines.foldl Machine.printLine m }

def openScreen (m : Machine) (leaving : Leaving) (path : String) : Result τ :=
  match leaving with
  | .crashed message => { complain m ["Fatal Error: " ++ message] with screens := [path] }
  | _ => { ending := .returned, machine := m, screens := [path] }

/-- Carries out what a command line asks for. -/
def runArguments (m : Machine) (leaving : Leaving) (a : Arguments) : Result τ :=
  let file := a.file.getD ""
  if file = "" then
    complain m ["Error: No source file specified.",
      "Usage: cplebolt <filename.cple> [--compile|--run|--check|--debug]"]
  else
    let path := (Path.absolute m.directoryText file).text
    if !m.seems path then complain m ["Error: File not found: " ++ path]
    else if !isSource path then complain m ["Error: Not a CPLE file. Use a .cple source file"]
    else
      match a.mode with
      | none => openScreen m leaving path
      | some mode =>
        match oneShot mode path m with
        | (.error e, m) => { ending := .failed e, machine := m }
        | (.ok (good, printed), m) =>
          { ending := .exited (if good then 0 else 1), machine := m, reports := [printed] }

/-- Runs a command line on a machine. The screen, if it is opened, is left in the given way. -/
def run (m : Machine) (leaving : Leaving) (words : List String) : Result τ :=
  match Arguments.read words with
  | .help => { ending := .exited 0, machine := { m with printed := m.printed ++ help } }
  | .wrong message =>
    { ending := .exited 2, machine := m
      errors := usage ++ "cplebolt: error: " ++ message ++ "\n" }
  | .arguments a => runArguments m leaving a

end

end Workbench.CommandLine
