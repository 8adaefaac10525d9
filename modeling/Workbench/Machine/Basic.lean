import Workbench.Failure
import Workbench.Machine.Disk
import Workbench.Path
import Workbench.Settings.Value
import Workbench.Text.Lines

/-!
# The machine

The state of the machine on which sources are compiled: its disk and clock, what the processes that
will be launched are going to do, and what has been launched and printed so far.

* `Machine.lookUp m path` : the place that a path leads to;
* `stat`, `statBytes`, `listDirectory`, `readText` : questions to the system;
* `writeText`, `appendText`, `makeDirectory`, `makeDirectories` : changes of the disk;
* `pathExists`, `isDirectory` : what counts as existing;
* `resolve` : the path that is left when links are followed;
* `launch` : the next process. A launch can fail before there is a process, as one with a null
  character does, or after it (`Launch.objection?`).

A call checks in this order: the path itself, the directories on the way, the refusals that the
machine was told to give for the place, a slash after the name of a file, and last what the call
needs.
-/

namespace Workbench

open Machine

namespace Machine

/-- The calls that can be refused at a place. -/
inductive Call
  | stat
  | listDirectory
  | openFile
  | makeDirectory
  deriving DecidableEq, Repr

/-- What was caught of a stream of a process that was stopped. -/
inductive Captured
  | nothing
  | text (s : String)
  | bytes (bs : List UInt8)
  deriving DecidableEq, Repr

inductive Ending
  /-- it was refused, at the path of the program unless another one is named -/
  | refused (fault : Fault) (path : Option String)
  /-- the process took too long and was stopped -/
  | timedOut (output errors : Captured)
  | exited (code : Int) (output errors : String)
  /-- the process was launched, but what it wrote is no text, or nobody could wait for it -/
  | failed (e : Failure)
  deriving DecidableEq, Repr

/-- What a process does. Files are written first, then directories made, then places removed. -/
structure Outcome where
  seconds : Float := 0
  files : List (Place × Content) := []
  directories : List Place := []
  removals : List Place := []
  ending : Ending := .exited 0 "" ""

structure Launch where
  command : List Text.CodePoints
  directory : String
  timeout : Settings.Value

/-- Why a launch fails that the system has not refused. -/
inductive Objection
  /-- no process is launched -/
  | beforeStart (e : Failure)
  /-- a process is launched, but nobody waits for it -/
  | afterStart (e : Failure)
  deriving DecidableEq, Repr

/-- Why a word cannot be passed to a process. -/
def wordFailure? (w : Text.CodePoints) : Option Failure :=
  match w.lost? with
  | some h => some (.unwritable h)
  | none => if .char '\x00' ∈ w then some .nullInPath else none

/-- The least whole number that rounds to none of the floating-point numbers. -/
def floatBound : Nat := Nat.pow 2 1024 - Nat.pow 2 970

/-- Why a time cannot be added to the clock. No time at all is no reason, nor is a truth value. -/
def timeFailure? : Settings.Value → Option Failure
  | .null => none
  | .bool _ => none
  | .float _ => none
  | .int n => if n.natAbs < floatBound then none else some .secondsTooMany
  | v => some (.notSeconds v.kind)

/-- The objection to a launch. Its words are passed in their order, and then the directory. -/
def Launch.objection? (l : Launch) : Option Objection :=
  match (l.command ++ [Text.CodePoints.ofString l.directory]).findSome? wordFailure? with
  | some e => some (.beforeStart e)
  | none => (timeFailure? l.timeout).map .afterStart

end Machine

structure Machine where
  /-- the directory from which paths without a root lead -/
  directory : Place := []
  /-- the directory of the user -/
  home : Path := Path.ofText "/home/user"
  disk : Disk := []
  /-- calls that are refused at a place -/
  refusals : List ((Call × Place) × Fault) := []
  /-- seconds since the start -/
  clock : Float := 0
  /-- where a path leads from a directory if its links are followed, as an absolute path -/
  realPath : String → String → String := fun directory path => (Path.resolved directory path).text
  /-- the launches that fail without a word of the system -/
  objection? : Launch → Option Objection := Launch.objection?
  /-- what the next processes do; a process beyond them does nothing -/
  outcomes : List Outcome := []
  launches : List Launch := []
  printed : String := ""

namespace Machine

/-! ## Looking up paths -/

/-- The greatest number of bytes of a path and of a name. -/
def pathLimit : Nat := 4095

def nameLimit : Nat := 255

/-- Follows names on a disk. What a name is followed from must be a directory. -/
def walk (d : Disk) : Place → List String → Except Fault Place
  | place, [] => .ok place
  | place, name :: rest =>
    match d.get? place with
    | none => .error .missing
    | some (.file _) => .error .notDirectory
    | some .directory =>
      if nameLimit < name.utf8ByteSize then .error .nameTooLong
      else walk d (if name = ".." then place.dropLast else place ++ [name]) rest

/-- The fault with which a call is refused at a place. -/
def refusal? (m : Machine) (call : Call) (place : Place) : Option Fault :=
  (m.refusals.find? fun r => r.1 = (call, place)).map Prod.snd

def placeOf (m : Machine) (path : String) : Except Fault Place :=
  if path = "" then .error .missing
  else if pathLimit < path.utf8ByteSize then .error .nameTooLong
  else
    let start := if path.startsWith "/" then [] else m.directory
    walk m.disk start (Path.partsOf path.toList)

/-- The place that a path leads to, with what is there, for a call. -/
def lookUpNode (m : Machine) (call : Call) (path : String) : Except Fault (Place × Option Node) :=
  match m.placeOf path with
  | .error f => .error f
  | .ok place =>
    match m.refusal? call place, m.disk.get? place with
    | some f, _ => .error f
    | none, some (.file c) =>
      if path.endsWith "/" then .error .notDirectory else .ok (place, some (.file c))
    | none, node => .ok (place, node)

/-- The error of a call at a path. -/
def failAt {α : Type} (path : String) (fault : Fault) : Except Failure α :=
  .error (.os { fault, path })

/-- The place that a path leads to, with what is there, or the failure of a call. -/
def lookUp (m : Machine) (call : Call) (path : String) : Except Failure (Place × Option Node) :=
  if '\x00' ∈ path.toList then .error .nullInPath
  else
    match m.lookUpNode call path with
    | .ok r => .ok r
    | .error f => failAt path f

/-! ## Questions -/

def stat (m : Machine) (path : String) : Except Failure Node :=
  match m.lookUp .stat path with
  | .error e => .error e
  | .ok (_, none) => failAt path .missing
  | .ok (_, some node) => .ok node

/-- The text of which a name shows the bytes, if there is one. -/
def textOfBytes? (name : String) : Option String :=
  (Utf8.decode (name.toList.map fun c => UInt8.ofNat c.toNat)).toOption

/-- Follows names that show bytes to the first one that is no text. It is on no disk. -/
def strayFault (d : Disk) : Place → List String → Fault
  | _, [] => .missing
  | place, name :: rest =>
    match d.get? place with
    | none => .missing
    | some (.file _) => .notDirectory
    | some .directory =>
      if nameLimit < name.length then .nameTooLong
      else
        match textOfBytes? name with
        | none => .missing
        | some t => strayFault d (if t = ".." then place.dropLast else place ++ [t]) rest

/-- The answer for a path of bytes. The text is what they are read as, or if they are no text, what is
shown instead. -/
def statBytes (m : Machine) (p : Path) (text : String) : Except Failure Node :=
  if (textOfBytes? p.text).isSome then m.stat text
  else if '\x00' ∈ text.toList then .error .nullInPath
  else if pathLimit < p.text.length then failAt text .nameTooLong
  else failAt text (strayFault m.disk (if p.root = .here then m.directory else []) p.parts)

def listDirectory (m : Machine) (path : String) : Except Failure (List String) :=
  match m.lookUp .listDirectory path with
  | .error e => .error e
  | .ok (_, none) => failAt path .missing
  | .ok (_, some (.file _)) => failAt path .notDirectory
  | .ok (place, some .directory) => .ok (m.disk.children place)

/-- The text of a file, with every line ended by a line feed. -/
def readText (m : Machine) (path : String) : Except Failure String :=
  match m.lookUp .openFile path with
  | .error e => .error e
  | .ok (_, none) => failAt path .missing
  | .ok (_, some .directory) => failAt path .isDirectory
  | .ok (_, some (.file c)) =>
    match Utf8.decode c.toBytes with
    | .ok s => .ok (String.ofList (Text.unixNewlines s.toList))
    | .error e => .error (.notText e)

/-- Does something exist, when asked with `stat`? A path that leads nowhere and one that cannot be
asked for do not. -/
def existing? (m : Machine) (path : String) : Except Failure (Option Node) :=
  match m.stat path with
  | .ok node => .ok (some node)
  | .error .nullInPath => .ok none
  | .error (.os e) => if e.fault.meansNo then .ok none else .error (.os e)
  | .error e => .error e

def pathExists (m : Machine) (path : String) : Except Failure Bool :=
  (m.existing? path).map Option.isSome

def isDirectory (m : Machine) (path : String) : Except Failure Bool :=
  (m.existing? path).map fun node => node.any Node.isDirectory

/-- Is there something at a path, as far as can be seen? -/
def seems (m : Machine) (path : String) : Bool :=
  match m.stat path with
  | .ok _ => true
  | .error _ => false

/-- The text of the directory that relative paths lead from. -/
def directoryText (m : Machine) : String :=
  (Path.mk .single m.directory).text

/-- The place of a path, with its links followed. Only links in a circle are a fault. -/
def resolve (m : Machine) (path : String) : Except Failure Path :=
  if '\x00' ∈ path.toList then .error .nullInPath
  else
    let p := Path.ofText (m.realPath m.directoryText path)
    match m.stat p.text with
    | .ok _ => .ok p
    | .error (.os e) => if e.fault = .linkLoop then .error (.linkCircle p.text) else .ok p
    | .error _ => .ok p

/-! ## Changes -/

/-- The place of a file that is to be written, with what it holds so far. -/
def openForWriting (m : Machine) (path : String) : Except Failure (Place × Option Content) :=
  match m.lookUp .openFile path with
  | .error e => .error e
  | .ok (_, some .directory) => failAt path .isDirectory
  | .ok (place, some (.file c)) => .ok (place, some c)
  | .ok (place, none) =>
    match m.disk.get? place.dropLast with
    | some _ => .ok (place, none)
    | none => failAt path .missing

/-- The machine with a node written to its disk. -/
def put (m : Machine) (place : Place) (node : Node) : Machine :=
  { m with disk := m.disk.put place node }

/-- Writes a text in the place of what a file holds. -/
def writeText (path text : String) : Action Machine Unit := fun m =>
  match m.openForWriting path with
  | .error e => (.error e, m)
  | .ok (place, _) => (.ok (), m.put place (.file (.ofText text)))

/-- Writes a text after what a file holds. -/
def appendText (path text : String) : Action Machine Unit := fun m =>
  match m.openForWriting path with
  | .error e => (.error e, m)
  | .ok (place, old) =>
    let before := match old with
      | some c => c.toBytes
      | none => []
    (.ok (), m.put place (.file (.bytes (before ++ Utf8.encode text))))

def makeDirectory (path : String) : Action Machine Unit := fun m =>
  match m.lookUp .makeDirectory path with
  | .error e => (.error e, m)
  | .ok (_, some _) => (failAt path .alreadyThere, m)
  | .ok (place, none) =>
    match m.disk.get? place.dropLast with
    | some _ => (.ok (), m.put place .directory)
    | none => (failAt path .missing, m)

/-- Makes a directory unless there is one. A fault is of no account if there is one after all. -/
def ensureDirectory (path : String) : Action Machine Unit := fun m =>
  match makeDirectory path m with
  | (.error (.os e), m) =>
    if e.fault = .missing then (.error (.os e), m)
    else
      match m.isDirectory path with
      | .error e => (.error e, m)
      | .ok true => (.ok (), m)
      | .ok false => (.error (.os e), m)
  | r => r

/-- Makes a directory and those that lead to it. Its names are given backwards. -/
def ensureDirectoriesTo (root : Root) : List String → Action Machine Unit
  | [] => ensureDirectory (Path.mk root []).text
  | name :: above => fun m =>
    let path := (Path.mk root (name :: above).reverse).text
    match ensureDirectory path m with
    | (.error (.os e), m) =>
      if e.fault = .missing then
        match ensureDirectoriesTo root above m with
        | (.ok _, m) => ensureDirectory path m
        | r => r
      else (.error (.os e), m)
    | r => r

/-- Makes a directory and those that lead to it, as far as they are not there. -/
def makeDirectories (p : Path) : Action Machine Unit := ensureDirectoriesTo p.root p.parts.reverse

def printLine (m : Machine) (line : String) : Machine :=
  { m with printed := m.printed ++ line ++ "\n" }

/-! ## Processes -/

/-- The machine after a process has done its work. -/
def Outcome.apply (o : Outcome) (m : Machine) : Machine :=
  let disk := o.files.foldl (fun d (p, c) => d.build p (.file c)) m.disk
  let disk := o.directories.foldl Disk.buildDirectory disk
  let disk := o.removals.foldl Disk.remove disk
  { m with clock := m.clock + o.seconds, disk }

/-- The machine after a launch and the work of its process. -/
def started (m : Machine) (l : Launch) : Machine :=
  (m.outcomes.headD {}).apply { m with outcomes := m.outcomes.tail, launches := m.launches ++ [l] }

def launch (m : Machine) (l : Launch) : Except Failure Ending × Machine :=
  let ending := (m.outcomes.headD {}).ending
  match m.objection? l, ending with
  | none, _ => (.ok ending, m.started l)
  | some (.beforeStart e), _ => (.error e, m)
  | some (.afterStart _), .refused _ _ => (.ok ending, m.started l)
  | some (.afterStart e), _ => (.error e, m.started l)

end Machine

end Workbench
