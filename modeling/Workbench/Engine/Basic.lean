import Workbench.Language
import Workbench.Session
import Workbench.Watch

/-!
# The engine

The engine carries out the commands for one source. It holds the setup, the session and the watcher,
and shows the session to whoever follows it.

* `Engine.make` : the engine for a source;
* `publish` : the session as it is now is shown; the sessions that were shown are `updates`;
* `note` : a line in the log file of the engine, apart from the log of the session;
* `reload` : the source read again;
* `refuse` : the answer to a command for a file that is no source.
-/

namespace Workbench

open Settings (Value)

structure Engine where
  setup : Setup
  session : Session
  watcher : Watcher := {}
  /-- the sessions that were shown, the last one at the end -/
  updates : List Session := []

namespace Engine

def logFile : String := "/tmp/cplebolt_engine.log"

def logLine (clock : Float) (text : String) : String :=
  "[" ++ Number.shortest clock.toBits ++ "] " ++ text ++ "\n"

def onSetup {α : Type} (a : Action Setup α) : Action Engine α :=
  Action.on Engine.setup (fun s e => { e with setup := s }) a

def onMachine {α : Type} (a : Action Machine α) : Action Engine α := onSetup (Setup.onMachine a)

def onWatcher {α : Type} (a : Action Watcher α) : Action Engine α :=
  Action.on Engine.watcher (fun w e => { e with watcher := w }) a

def askSetup {α : Type} (f : Setup → Except Failure α) : Action Engine α :=
  Action.ask fun e => f e.setup

def change (f : Session → Session) : Action Engine Unit :=
  modify fun e => { e with session := f e.session }

/-- A text in the log of the session. -/
def say (text : String) : Action Engine Unit := change fun s => s.say text

/-- Several texts in the log of the session, in order. -/
def sayAll (texts : List String) : Action Engine Unit :=
  change fun s => texts.foldl Session.say s

def setStatus (status : String) : Action Engine Unit := change fun s => { s with status }

/-- A line in the log file. -/
def note (text : String) : Action Engine Unit := do
  let e ← get
  onMachine (Machine.appendText logFile (logLine e.setup.machine.clock text))

/-- Shows the session as it is now. -/
def publish : Action Engine Unit :=
  modify fun e =>
    let session := { e.session with lastUpdate := e.setup.machine.clock }
    { e with session, updates := e.updates ++ [session] }

/-- Ends a command with a status and shows the session. -/
def finish (status : String) : Action Engine Unit := do
  setStatus status
  publish

/-- Reads the source again. If the system refuses that, the old text stays. -/
def reload : Action Engine Unit := do
  let e ← get
  match e.setup.machine.readText e.session.path with
  | .ok code => change fun s => s.load code
  | .error (.os x) => note ("Could not read source: " ++ x.message)
  | .error x => throw x

/-- The answer to a command for a file that is no source. -/
def refuse : Action Engine Unit := do
  say "❌ Not a CPLE file"
  finish "not a CPLE file"

def make (path : String) : Action Setup Engine := do
  Compiler.greet
  let setup ← get
  return { setup, session := { path } }

end Engine

end Workbench
