import Workbench.Artifact
import Workbench.Number.Fixed
import Workbench.Setup

/-!
# Running the compiler and its programs

* `Compiler.resolve` : the compiler to use, the configured one if it exists and else the one that
  comes with the program;
* `Compiler.command` : the words with which it is launched;
* `Compiler.compile` : one compilation, with its `Compilation` as result. A launch that is refused
  or takes too long is a compilation that failed; any other failure of a launch is no compilation;
* `Compiler.execute` : one run of a program, with its `Execution` as result;
* `Compiler.greet` : the warning about a configured compiler that is not there.
-/

namespace Workbench

open Artifact (Candidate)
open Settings (Value)
open Text (CodePoints)

structure Compilation where
  succeeded : Bool
  output : String := ""
  errors : String := ""
  seconds : Float := 0
  /-- the words of the launch, none if there was no launch -/
  command : List CodePoints := []
  /-- what is wrong in the words of this program, nothing after a success -/
  error : String := ""

/-- The text in which diagnostics are sought: what the compiler said, or else what is wrong. -/
def Compilation.diagnosticText (c : Compilation) : String :=
  if c.errors = "" then c.error else c.errors

/-- How the run of a program went. -/
structure Execution where
  /-- none if the program did not come to an end -/
  exitCode : Option Int
  output : String := ""
  errors : String := ""
  seconds : Float := 0
  error : String := ""

/-- Did the program not start, not end or end badly? -/
def Execution.failed (e : Execution) : Bool := e.error ≠ "" || e.exitCode.any (· ≠ 0)

/-- A time span in seconds, as it is shown. -/
def showSeconds (seconds : Float) : String := Number.fixed2 seconds.toBits

namespace Compiler

/-- The directory of the compiler that comes with the program. -/
def bundledDirectory : Path := Path.ofText "/opt/cplebolt/bin"

def platform : String := "linux"

/-- The name of the compiler that comes with the program, by platform. -/
def bundledName (platform : String) : String :=
  if platform = "win32" then "cple.exe" else "cple.out"

/-- The compiler that comes with the program. -/
def bundled : Path := bundledDirectory / Path.ofText (bundledName platform)

def configured? (s : Settings.Store) : Except Failure (Option Candidate) :=
  let v := s.value "compiler_path"
  if v.holds then
    match v with
    | .text t => .ok (some (.ofText t))
    | v => .error (.notPath v.kind)
  else .ok none

/-- The configured compiler, if it exists. -/
def present? (s : Setup) : Except Failure (Option Path) :=
  match configured? s.settings with
  | .error e => .error e
  | .ok none => .ok none
  | .ok (some c) => (c.exists? s.machine).map fun found => if found then some c.path else none

/-- The compiler to use. It need not exist. -/
def resolve (s : Setup) : Except Failure Path := (present? s).map fun p => p.getD bundled

def arguments (s : Settings.Store) : Except Failure (List CodePoints) :=
  let v := s.value "compiler_args"
  if v.holds then
    match v with
    | .text t =>
      match Shell.split t with
      | .ok words => .ok words
      | .error e => .error (.badArguments e)
    | v => .error (.notReadable v.kind)
  else .ok []

/-- The words with which the compiler is launched for a source. -/
def command (s : Setup) (source : String) : Except Failure (List CodePoints) :=
  match resolve s with
  | .error e => .error e
  | .ok compiler => (arguments s.settings).map fun words => compiler.text :: source :: words

/-- The time that a process may take. -/
def timeout (s : Settings.Store) : Value := (s.get? "timeout").getD (.int 30)

/-- What is said about a process that took too long. -/
def timeoutText (what : String) (timeout : Value) : Except Failure String :=
  match timeout.display? with
  | some t => .ok (what ++ " timed out after " ++ t ++ "s")
  | none => .error .numberTooLong

/-- Launches a process in a directory and takes the time. -/
def launch (command : List CodePoints) (directory : String) :
    Action Setup (Machine.Ending × Float) := fun s =>
  let (r, m) := s.machine.launch { command, directory, timeout := timeout s.settings }
  (r.map fun ending => (ending, m.clock - s.machine.clock), { s with machine := m })

/-- The error of a launch that was refused. -/
def refusal (command : List CodePoints) (fault : Machine.Fault) (path : Option String) :
    Machine.OsError :=
  { fault, path := path.getD (CodePoints.shown (command.headD [])) }

/-- What is said when there is no compiler. -/
def missingText (compiler : Path) : String := "CPLE compiler not found at: " ++ compiler.text

/-- The compilation that a launch of the compiler amounts to. -/
def compilationOf (s : Settings.Store) (command : List CodePoints) (ending : Machine.Ending)
    (seconds : Float) : Except Failure Compilation :=
  match ending with
  | .timedOut _ _ =>
    (timeoutText "Compiler" (timeout s)).map fun error =>
      { succeeded := false, seconds, command, error }
  | .refused fault path =>
    .ok {
      succeeded := false, seconds, command
      error := "Could not start compiler: " ++ (refusal command fault path).message }
  | .exited code output errors =>
    if code = 0 then .ok { succeeded := true, output, errors, seconds, command }
    else
      .ok {
        succeeded := false, output, errors, seconds, command
        error := "Command failed with exit code " ++ Number.text code }
  | .failed e => .error e

def compile (source : String) : Action Setup Compilation := do
  let compiler ← Action.ask resolve
  let found ← Action.ask fun s => s.machine.pathExists compiler.text
  if found then
    let words ← Action.ask fun s => command s source
    let (ending, seconds) ← launch words (Path.ofText source).parent.text
    Action.ask fun s => compilationOf s.settings words ending seconds
  else return { succeeded := false, error := missingText compiler }

/-- What was caught of a stream, as text. -/
def textOf : Machine.Captured → String
  | .nothing => ""
  | .text s => s
  | .bytes bs => Utf8.decodeLossy bs

/-- The execution that a launch of a program amounts to. -/
def executionOf (s : Settings.Store) (command : List CodePoints) (ending : Machine.Ending)
    (seconds : Float) : Except Failure Execution :=
  match ending with
  | .timedOut output errors =>
    (timeoutText "Program" (timeout s)).map fun error =>
      { exitCode := none, output := textOf output, errors := textOf errors, seconds, error }
  | .refused fault path =>
    .ok {
      exitCode := none, seconds
      error := "Could not start program: " ++ (refusal command fault path).message }
  | .exited code output errors => .ok { exitCode := some code, output, errors, seconds }
  | .failed e => .error e

/-- Runs a program, from its own directory unless another one is named. -/
def execute (program : Path) (directory : String) : Action Setup Execution := do
  let words : List CodePoints := [program.text]
  let (ending, seconds) ←
    launch words (if directory = "" then program.parent.text else directory)
  Action.ask fun s => executionOf s.settings words ending seconds

/-- The warning about a configured compiler that is not there. -/
def staleText (v : Value) : String :=
  "Warning: Compiler '" ++ v.display?.getD "" ++ "' not found, using bundled compiler."

/-- Warns about a configured compiler that is not there. -/
def greet : Action Setup Unit := do
  let s ← get
  match configured? s.settings, present? s with
  | .error e, _ => throw e
  | _, .error e => throw e
  | .ok (some _), .ok none =>
    set { s with machine := s.machine.printLine (staleText (s.settings.value "compiler_path")) }
  | _, _ => return ()

end Compiler

end Workbench
