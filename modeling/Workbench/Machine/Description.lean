import Workbench.Machine.Basic
import Workbench.Record

/-!
# Descriptions of machines

A machine is described by an object whose fields may all be left out:

* `cwd` : the working directory;
* `dirs`, `files` : what is on the disk, files with their content;
* `errors` : the calls that are refused, as `CALL:PATH`, with the codes of the faults;
* `runs` : what the next processes do, see `Outcome.describedBy`.

A content is a text, an object with `bytes`, or an object with the `size` of a filler.
-/

namespace Workbench

open Machine
open Settings (Value)

namespace Settings.Value

/-- The field of an object; null if there is none. -/
def field (v : Value) (name : String) : Value :=
  match v with
  | .object fields => (Record.get? fields name).getD .null
  | _ => .null

def hasField (v : Value) (name : String) : Bool :=
  match v with
  | .object fields => (Record.get? fields name).isSome
  | _ => false

/-- The items of a list; other values have none. -/
def items : Value → List Value
  | .list vs => vs
  | _ => []

/-- The fields of an object; other values have none. -/
def entries : Value → List (String × Value)
  | .object fields => fields.map fun (name, v) => (name.shown, v)
  | _ => []

def text? : Value → Option String
  | .text s => some s.shown
  | _ => none

/-- The text that a value is; other values count as empty. -/
def toText (v : Value) : String := v.text?.getD ""

/-- The whole number that a value is; other values count as zero. -/
def toInt : Value → Int
  | .int n => n
  | _ => 0

/-- The number that a value is; other values count as zero. -/
def toFloat : Value → Float
  | .int n => Float.ofBits (Number.ofInt n)
  | .float bits => Float.ofBits bits
  | _ => 0

def texts (v : Value) : List String := v.items.filterMap text?

end Settings.Value

namespace Machine

def Fault.codes : List (String × Fault) := [
  ("EPERM", .notPermitted), ("ENOENT", .missing), ("EIO", .inputOutput),
  ("E2BIG", .tooManyArguments), ("ENOEXEC", .notExecutable), ("EBADF", .badHandle),
  ("EACCES", .denied), ("EEXIST", .alreadyThere), ("ENOTDIR", .notDirectory),
  ("EISDIR", .isDirectory), ("ENOSPC", .noSpace), ("EROFS", .readOnly),
  ("ENAMETOOLONG", .nameTooLong), ("ELOOP", .linkLoop)]

/-- The fault with a code. An unknown code stands for an error of input or output. -/
def Fault.ofCode (code : String) : Fault := (Record.get? Fault.codes code).getD .inputOutput

def Call.names : List (String × Call) := [
  ("stat", .stat), ("listdir", .listDirectory), ("open", .openFile), ("mkdir", .makeDirectory)]

def placeNamed (path : String) : Place := (Path.absolute "/" path).parts

/-- The call and place of a text `CALL:PATH`. -/
def refusalKey? (s : String) : Option (Call × Place) :=
  let name := s.toList.takeWhile (· ≠ ':')
  let path := String.ofList (s.toList.drop (name.length + 1))
  (Record.get? Call.names (String.ofList name)).map fun call => (call, placeNamed path)

def bytesOf (v : Value) : List UInt8 :=
  (v.field "bytes").items.map fun b => UInt8.ofNat b.toInt.toNat

def Content.describedBy (v : Value) : Content :=
  match v with
  | .text s => .ofText s.shown
  | v => if v.hasField "size" then .filler (v.field "size").toInt.toNat else .bytes (bytesOf v)

/-- What was caught of a stream. -/
def Captured.describedBy (v : Value) : Captured :=
  match v with
  | .text s => .text s.shown
  | .object _ => .bytes (bytesOf v)
  | _ => .nothing

/-- How a launch ends: with the fault `oserror` at `filename`, by a `timeout`, or with a
`returncode`. -/
def Ending.describedBy (v : Value) : Ending :=
  match v.field "oserror" with
  | .text code => .refused (.ofCode code.shown) (v.field "filename").text?
  | _ =>
    if (v.field "timeout").holds then
      .timedOut (.describedBy (v.field "stdout")) (.describedBy (v.field "stderr"))
    else
      .exited (v.field "returncode").toInt (v.field "stdout").toText (v.field "stderr").toText

/-- What a process does: it takes `seconds`, `creates` files, makes the directories `mkdirs` and
`removes` places, and then ends. -/
def Outcome.describedBy (v : Value) : Outcome where
  seconds := (v.field "seconds").toFloat
  files := (v.field "creates").entries.map fun (path, c) => (placeNamed path, .describedBy c)
  directories := (v.field "mkdirs").texts.map placeNamed
  removals := (v.field "removes").texts.map placeNamed
  ending := .describedBy v

def refuse (m : Machine) (key : String) (code : String) : Machine :=
  match refusalKey? key with
  | some k =>
    { m with refusals := (k, .ofCode code) :: m.refusals.filter fun r => r.1 ≠ k }
  | none => m

/-- The machine without a refusal. -/
def permit (m : Machine) (key : String) : Machine :=
  match refusalKey? key with
  | some k => { m with refusals := m.refusals.filter fun r => r.1 ≠ k }
  | none => m

/-- The machine with a file and the directories that lead to it. -/
def addFile (m : Machine) (path : String) (c : Content) : Machine :=
  { m with disk := m.disk.build (placeNamed path) (.file c) }

/-- The machine with a directory and those that lead to it. -/
def addDirectory (m : Machine) (path : String) : Machine :=
  { m with disk := m.disk.buildDirectory (placeNamed path) }

/-- The machine without a place and all below it. -/
def removePlace (m : Machine) (path : String) : Machine :=
  { m with disk := m.disk.remove (placeNamed path) }

/-- The machine with what further processes do. -/
def addOutcomes (m : Machine) (runs : List Value) : Machine :=
  { m with outcomes := m.outcomes ++ runs.map .describedBy }

/-- The directory in which a machine works unless its description says otherwise. -/
def defaultDirectory : String := "/work"

/-- The machine that a value describes. Some directories are always there. -/
def describedBy (v : Value) : Machine :=
  let cwd := (v.field "cwd").text?.getD defaultDirectory
  let m : Machine := { directory := placeNamed cwd }
  let m := ["/tmp", m.home.text, cwd].foldl addDirectory m
  let m := (v.field "dirs").texts.foldl addDirectory m
  let m := (v.field "files").entries.foldl (fun m (path, c) => m.addFile path (.describedBy c)) m
  let m := (v.field "errors").entries.foldl (fun m (key, code) => m.refuse key code.toText) m
  m.addOutcomes (v.field "runs").items

end Machine

end Workbench
