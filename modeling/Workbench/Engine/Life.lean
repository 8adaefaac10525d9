import Workbench.Engine.Command

/-!
# The life of an engine

* `Engine.start` : reads the source and begins to watch it, if the settings ask for that;
* `Engine.receive` : an event of the watched directory; a save of the source compiles it;
* `Engine.stop` : ends watching;
* `Engine.close` : drops the diagnostics of the source.
-/

namespace Workbench.Engine

/-- Reads the source, shows the session and begins to watch, if the settings ask for that. -/
def start : Action Engine Unit := do
  reload
  publish
  let e ← get
  if (e.setup.settings.value "compile_on_save").holds then
    onWatcher (Watcher.start e.setup.machine e.session.path)

def stop : Action Engine Unit := modify fun e => { e with watcher := e.watcher.stop }

/-- Drops the diagnostics of the source. -/
def close : Action Engine Unit := do
  change fun s => s.forget s.path
  publish

def saved (path : String) : Action Engine Unit := do
  note ("Saved " ++ path ++ ", compiling")
  let _ ← compile

/-- Gives an event to one of the watcher's filters. -/
def offer (event : FileEvent) (i : Nat) : Action Engine Unit := do
  let m := (← get).setup.machine
  match ← onWatcher (Watcher.offer m event i) with
  | some path => saved path
  | none => return ()

/-- Gives an event to the watcher's filters, one after the other. -/
def receive (event : FileEvent) : Action Engine Unit := do
  (← get).watcher.listeners.forM (offer event)

end Workbench.Engine
