import Workbench.Engine.Life
import Workbench.Engine.Probe
import Workbench.View.Problems
import Workbench.View.StatusBar

/-!
# The screen

The screen shows the session of an engine in four views, takes commands by keys, and lets the user
edit the compiler arguments in a field of their own. The engine's updates and the arguments that the
user enters are messages, which are delivered later; each delivery shows the session as it is by
then.

* `Screen.Command`, `Screen.perform` : what the user and the system can do to the screen;
* `Screen.refresh` : the views of a session;
* `Screen.handle` : the delivery of a message;
* `Screen.step` : a command with the messages that it causes.
-/

namespace Workbench

open Settings (Value)

inductive Message
  | updated
  | argumentsEntered (text : String)
  deriving DecidableEq, Repr

/-- A screen with views that are texts of type `τ`. The views show nothing before they are first
set. -/
structure Screen (τ : Type) where
  engine : Engine
  bar : StatusBar := {}
  /-- the bar as it is shown -/
  barText : Option τ := none
  source : Option τ := none
  problems : Option τ := none
  problemCount : Nat := 0
  outputShown : Bool := true
  output : String := ""
  /-- how often the output was moved to its end -/
  scrolls : Nat := 0
  argumentsShown : Bool := false
  /-- the field for the compiler arguments -/
  field : Value := .text ""
  /-- how often the field got the keyboard -/
  focuses : Nat := 0
  /-- the bar at the beginning of each command of the engine -/
  working : List τ := []
  pending : List Message := []

namespace Screen

variable {τ : Type} [Rich τ]

/-- Sets parts of the bar anew. The widget of the bar may find marks in its text that it cannot
read. -/
def updateBar (u : StatusBar.Update) : Action (Screen τ) Unit := do
  modify fun s => { s with bar := s.bar.update u }
  let text ← Action.ask fun s => s.bar.text
  let shown ← Action.ask fun _ => Rich.display text
  modify fun s => { s with barText := some shown }

/-- Work of the engine. Each update of it is a message. -/
def onEngine {α : Type} (a : Action Engine α) : Action (Screen τ) α := fun s =>
  let (r, engine) := a s.engine
  let news := engine.updates.length - s.engine.updates.length
  (r, { s with engine, pending := s.pending ++ List.replicate news .updated })

/-- Shows a session in the views. -/
def refresh (session : Session) : Action (Screen τ) Unit := do
  let ds := session.diagnostics
  modify fun s =>
    { s with source := some (View.source session.lines ds), problemCount := ds.length }
  let problems ← Action.ask fun _ => View.problems ds
  modify fun s =>
    { s with
      problems := some problems
      output := session.output.text
      scrolls := s.scrolls + 1 }
  updateBar {
    status := some session.status
    errors := some session.errorCount
    warnings := some session.warningCount }

/-- Keeps the arguments that the user entered. -/
def takeArguments (text : String) : Action (Screen τ) Unit := do
  onEngine (Engine.onSetup (Setup.set "compiler_args" (.text text)))
  updateBar { arguments := .text text }

/-- What the delivery of a message does. -/
def handle : Message → Action (Screen τ) Unit
  | .updated => do refresh (← get).engine.session
  | .argumentsEntered text => takeArguments text

/-- The text of a setting that holds compiler arguments. -/
def configuredArguments (s : Screen τ) : Value :=
  (s.engine.setup.settings.get? "compiler_args").getD (.text "")

/-- Says that a command of the engine begins. -/
def announce : Action (Screen τ) Unit := do
  let s ← get
  if (s.engine.setup.settings.value "show_output_on_compile").holds then
    modify fun s => { s with outputShown := true }
  updateBar { status := some "working" }
  modify fun s => { s with working := s.working ++ s.barText.toList }

/-- Begins a command of the engine and carries it out. -/
def work {α : Type} (a : Action Engine α) : Action (Screen τ) Unit := do
  announce
  let _ ← onEngine a

/-- What the user and the system can do to a screen. -/
inductive Command
  | start
  | stop
  | compile
  | run
  | check
  | probe
  | toggleOutput
  | editArguments
  | leaveArguments
  | enterArguments (text : String)
  | receive (event : FileEvent)
  deriving DecidableEq, Repr

/-- Carries out a command, without the messages that it causes. -/
def perform : Command → Action (Screen τ) Unit
  | .start => do
    let s ← get
    updateBar {
      file := some (Path.ofText s.engine.session.path).name
      arguments := s.configuredArguments }
    onEngine Engine.start
  | .stop => onEngine do
    Engine.stop
    Engine.close
  | .compile => work Engine.compile
  | .run => work Engine.run
  | .check => work Engine.check
  | .probe => do
    modify fun s => { s with outputShown := true }
    work Engine.probe
  | .toggleOutput => modify fun s => { s with outputShown := !s.outputShown }
  | .editArguments => modify fun s =>
    { s with
      argumentsShown := true
      field := s.configuredArguments
      focuses := s.focuses + 1 }
  | .leaveArguments => modify fun s => { s with argumentsShown := false }
  | .enterArguments text => modify fun s =>
    { s with
      pending := s.pending ++ [.argumentsEntered (Text.trimmed text)]
      argumentsShown := false }
  | .receive event => onEngine (Engine.receive event)

/-- Takes the messages that wait. -/
def collect : Action (Screen τ) (List Message) := do
  let s ← get
  modify fun s => { s with pending := [] }
  return s.pending

/-- Carries out a command and delivers the messages that it causes. The first failure ends all. -/
def step (c : Command) : Action (Screen τ) Unit := do
  perform c
  (← collect).forM handle

def make (path : String) : Action Setup (Screen τ) := do
  let engine ← Engine.make path
  return { engine }

end Screen

end Workbench
