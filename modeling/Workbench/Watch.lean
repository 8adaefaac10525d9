import Workbench.Machine.Basic

/-!
# Watching a source

An editor often writes a file twice when it saves it, or writes another file and renames it. A save
filter passes on the first of such events and drops those that follow it within half a second.

* `SaveFilter.receiveAt` : what a filter makes of an event that comes at a time;
* `Watcher` : the filters that get the events of a directory while the watcher is running;
* `Watcher.start`, `Watcher.deliver`, `Watcher.stop` : its life.

Times may be numbers of any kind, so that the rule can be studied with exact ones.
-/

namespace Workbench

/-- What happened to a file or directory. -/
inductive Change
  | modified (path : String)
  | moved (path destination : String)
  | other (path : String)
  deriving DecidableEq, Repr

structure FileEvent where
  change : Change
  isDirectory : Bool := false
  deriving DecidableEq, Repr

/-- The path at which an event leaves a new content of a file. A directory has none. -/
def FileEvent.saved? (e : FileEvent) : Option String :=
  if e.isDirectory then none
  else
    match e.change with
    | .modified path => some path
    | .moved _ destination => some destination
    | .other _ => none

structure SaveFilter (τ : Type) where
  /-- the file, as an absolute path -/
  target : String
  /-- when the last save was passed on -/
  last : τ

/-- The time in seconds in which further saves of a file are dropped. -/
def savePause {τ : Type} [OfScientific τ] : τ := 0.5

namespace SaveFilter

/-- The filter for a file, of which no save was passed on so far. -/
def forFile {τ : Type} [OfNat τ 0] (m : Machine) (path : String) : Except Failure (SaveFilter τ) :=
  (m.resolve (Path.ofText path).text).map fun p => { target := p.text, last := 0 }

section Times
variable {τ : Type} [Sub τ] [LT τ] [DecidableLT τ]

/-- Does a save of `path` at the time `now` count, with `pause` to pass after the last one? -/
def accepts (pause now : τ) (f : SaveFilter τ) (path : String) : Bool :=
  path = f.target && decide (pause < now - f.last)

/-- Whether a save counts, and the filter after it. -/
def observe (pause now : τ) (f : SaveFilter τ) (path : String) : Bool × SaveFilter τ :=
  if f.accepts pause now path then (true, { f with last := now }) else (false, f)

/-- Whether an event that comes at a time is a save that counts, and the filter after it. -/
def receiveAt [OfScientific τ] (m : Machine) (now : τ) (f : SaveFilter τ) (e : FileEvent) :
    Except Failure (Bool × SaveFilter τ) :=
  match e.saved? with
  | none => .ok (false, f)
  | some path =>
    (m.resolve (Path.ofText path).text).map fun p => f.observe savePause now p.text

end Times

/-- The filter for a file, with the times of the clock. -/
def make (m : Machine) (path : String) : Except Failure (SaveFilter Float) := forFile m path

/-- Whether an event that comes now is a save that counts, and the filter after it. -/
def receive (m : Machine) (f : SaveFilter Float) (e : FileEvent) :
    Except Failure (Bool × SaveFilter Float) :=
  receiveAt m m.clock f e

end SaveFilter

inductive WatchRequest
  | schedule (directory : String)
  | start
  | stop
  deriving DecidableEq, Repr

structure Watcher where
  filters : List (SaveFilter Float) := []
  /-- a watcher can be started once only -/
  started : Bool := false
  running : Bool := false
  requests : List WatchRequest := []

namespace Watcher

/-- The watcher after one more request. -/
def ask (w : Watcher) (r : WatchRequest) : Watcher := { w with requests := w.requests ++ [r] }

/-- The filter for a file that is to be watched, and its directory. -/
def prepare (m : Machine) (path : String) : Except Failure (SaveFilter Float × String) :=
  match m.resolve (Path.ofText path).text with
  | .error e => .error e
  | .ok p =>
    match m.pathExists p.text with
    | .error e => .error e
    | .ok false => .error (.nothingToWatch path)
    | .ok true => (SaveFilter.make m p.text).map fun f => (f, p.parent.text)

/-- Begins to watch a file. A second start adds the file and then fails. -/
def start (m : Machine) (path : String) : Action Watcher Unit := fun w =>
  match prepare m path with
  | .error e => (.error e, w)
  | .ok (f, directory) =>
    let w := { w.ask (.schedule directory) with filters := w.filters ++ [f] }
    if w.started then (.error .startedTwice, w)
    else (.ok (), { w.ask .start with started := true, running := true })

/-- Gives an event to one of the filters. If the filter takes it for a save that counts, the answer
is the file that was saved. -/
def offer (m : Machine) (e : FileEvent) (i : Nat) : Action Watcher (Option String) := fun w =>
  match w.filters[i]? with
  | none => (.ok none, w)
  | some f =>
    match f.receive m e with
    | .error x => (.error x, w)
    | .ok (counts, f') =>
      (.ok (if counts then some f.target else none), { w with filters := w.filters.set i f' })

/-- The filters that get an event, by their numbers. -/
def listeners (w : Watcher) : List Nat := if w.running then List.range w.filters.length else []

/-- Gives an event to the filters, one after the other. The answer is the files that were saved. -/
def deliver (m : Machine) (e : FileEvent) : Action Watcher (List String) := do
  let w ← get
  w.listeners.filterMapM (offer m e)

def stop (w : Watcher) : Watcher :=
  if w.running then { w.ask .stop with running := false } else w

end Watcher

end Workbench
