import Workbench.Engine.Basic

/-!
# The commands of the engine

* `Engine.compile` : compiles the source and files its diagnostics;
* `Engine.check` : the same, announced as a check;
* `Engine.run` : compiles the source, looks for the program and runs it.

Each command shows the session when it ends, whatever the end is.
-/

namespace Workbench.Engine

open Settings (Value)

/-- A line across the log. -/
def rule : String := String.ofList (List.replicate 60 '─')

/-- What is said after a compilation that failed. -/
def reportFailure (source : String) (c : Compilation) : Action Engine Unit := do
  sayAll ["❌ Compilation Failed!\n", "Error Output:", c.diagnosticText]
  let e ← get
  let (session, ds) := e.session.publish source c.diagnosticText
  set { e with session }
  note ("Compile failed in " ++ showSeconds c.seconds ++ "s with " ++ toString ds.length ++
    " diagnostics")
  finish ("failed (" ++ showSeconds c.seconds ++ "s)")

/-- What is said after a compilation that succeeded. -/
def reportSuccess (c : Compilation) : Action Engine Unit := do
  say "✅ Compilation Successful!\n"
  if Text.trimmed c.output ≠ "" then sayAll ["Compiler Output:", c.output]
  say ("\n⏱️  Completed in " ++ showSeconds c.seconds ++ "s")
  note ("Compile succeeded in " ++ showSeconds c.seconds ++ "s")
  finish ("compiled (" ++ showSeconds c.seconds ++ "s)")

/-- What is said when there is no compiler. -/
def reportMissing (compiler : Path) : Action Engine Unit := do
  let text := Compiler.missingText compiler
  say ("❌ Error: " ++ text)
  setStatus "compiler missing"
  note text
  publish

/-- Compiles the source with a compiler that is there. The diagnostics of an earlier compilation are
dropped first. -/
def build (source : String) : Action Engine Bool := do
  change fun s => { s.forget source with status := "compiling" }
  let words ← askSetup fun s => Compiler.command s source
  say ("$ " ++ Shell.line words ++ "\n")
  note ("Compiling " ++ source ++ ": " ++ Text.quotedList words)
  let c ← onSetup (Compiler.compile source)
  change fun s => { s with lastCompilation := some c }
  if c.succeeded then reportSuccess c else reportFailure source c
  return c.succeeded

/-- Compiles the source, which is read again before. The answer says whether that succeeded. -/
def compile : Action Engine Bool := do
  let source := (← get).session.path
  if isSource source then
    reload
    let compiler ← askSetup Compiler.resolve
    let found ← askSetup fun s => s.machine.pathExists compiler.text
    if found then build source
    else
      reportMissing compiler
      return false
  else
    refuse
    return false

def check : Action Engine Bool := do
  if isSource (← get).session.path then
    say "Checking CPLE syntax..."
    compile
  else
    refuse
    return false

/-- What is said when a search for the program was refused by the system. -/
def reportCannotCheck (failure : Failure) : Action Engine Unit := do
  say ("❌ Could not search for the compiled program: " ++ failure.message)
  note ("Artifact lookup error: " ++ failure.message)
  finish "lookup failed"

/-- What is said about a template that has no text. -/
def reportBadTemplate (failure : Failure) : Action Engine Unit := do
  say ("❌ " ++ failure.message)
  say ("Fix artifact_candidates in your config. Placeholders: " ++
    "\x7bdir\x7d \x7bparent\x7d \x7bgrandparent\x7d \x7bbase\x7d")
  note ("Bad artifact template: " ++ failure.message)
  finish "bad artifact template"

/-- What is said when there is no program. -/
def reportNotFound (l : Artifact.Lookup) : Action Engine Unit := do
  say "❌ Could not find the compiled program. Looked for:"
  sayAll (l.candidates.map fun p => "   " ++ p.text)
  say "Run the debug command to see which files the compiler creates."
  note "Artifact not found"
  finish "program not found"

/-- What the log says before the output of a program. -/
def programHeading (program : Path) : List String :=
  ["   ✅ Found: " ++ program.text ++ "\n", "Executing: " ++ program.name ++ "\n", rule,
    "Program Output:", rule ++ "\n"]

/-- How the exit code of a program is shown; a program that did not end has none. -/
def showExitCode : Option Int → String
  | some code => Number.text code
  | none => "None"

/-- What the log says about an execution that failed. -/
def failureLines (x : Execution) : List String :=
  ["\n❌ Runtime Error!\n"] ++ (if x.errors = "" then [] else [x.errors]) ++
    [if x.error = "" then "Program exited with code " ++ showExitCode x.exitCode else x.error]

/-- What the log says about an execution that went well. -/
def successLines (x : Execution) : List String :=
  (if x.output = "" then [] else [x.output]) ++
    (if x.errors = "" then [] else ["\nStderr:", x.errors]) ++
    (if x.output = "" ∧ x.errors = "" then ["(No output)"] else [])

def reportExecution (program : Path) (x : Execution) : Action Engine Unit := do
  sayAll (if x.failed then failureLines x else successLines x)
  setStatus (if x.failed then "runtime error" else "ran")
  sayAll ["\n" ++ rule, "⏱️  Execution time: " ++ showSeconds x.seconds ++ "s"]
  note ("Ran " ++ program.text ++ " -> " ++ showExitCode x.exitCode)
  publish

/-- Runs a program from the directory of the source. -/
def execute (source : String) (program : Path) : Action Engine Execution := do
  sayAll (programHeading program)
  let x ← onSetup (Compiler.execute program (Path.ofText source).parent.text)
  change fun s => { s with lastExecution := some x }
  reportExecution program x
  return x

/-- Looks for the program of the source and runs it. -/
def runCompiled (source : String) : Action Engine (Option Execution) := do
  let s := (← get).setup
  match Artifact.locateWith s.machine source (s.settings.value "artifact_candidates") with
  | .error (.cannotCheck path cause) =>
    reportCannotCheck (.cannotCheck path cause)
    return none
  | .error (.badTemplate template fault) =>
    reportBadTemplate (.badTemplate template fault)
    return none
  | .error failure => throw failure
  | .ok l =>
    change fun s => { s with lastLookup := some l }
    match l.path with
    | none =>
      reportNotFound l
      return none
    | some program => return some (← execute source program)

/-- Compiles the source, and runs its program if that succeeds. -/
def run : Action Engine (Option Execution) := do
  if ← compile then runCompiled (← get).session.path else return none

end Workbench.Engine
