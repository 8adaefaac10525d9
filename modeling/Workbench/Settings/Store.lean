import Workbench.Json.Printer
import Workbench.Json.Reader
import Workbench.Machine.Basic

/-!
# The store of settings

Settings are kept in memory and in the file `config.json` of a directory, by default a directory of
the user. Values in the file override the defaults name by name.

* `Store.load` : the settings of a directory. A file that cannot be read or is not JSON is passed
  over with a warning;
* `Store.get?`, `Store.value` : a setting;
* `Store.save`, `Store.set` : writing the file.
-/

namespace Workbench.Settings

/-- The settings that hold unless others are given. -/
def defaults : Record Text.CodePoints Value := [
  ("compiler_path", .text ""),
  ("compiler_args", .text ""),
  ("compile_on_save", .bool false),
  ("show_output_on_compile", .bool true),
  ("timeout", .int 30),
  ("artifact_candidates", .list [])]

/-- The settings and the directory in which they are kept. -/
structure Store where
  directory : Path
  values : Record Text.CodePoints Value

namespace Store

def fileName : String := "config.json"

/-- The directory below that of the user in which settings are kept by default. -/
def directoryName : String := ".cplebolt"

def fileIn (directory : Path) : Path := directory / Path.ofText fileName

/-- The directory for the settings. An empty text asks for none in particular. -/
def directoryFor (home : Path) : Option String → Path
  | none => home / Path.ofText directoryName
  | some s => if s = "" then home / Path.ofText directoryName else Path.ofText s

/-- The text of an error in a file of settings. -/
def errorText (reason : Json.Reason) (offset line column : Nat) : String :=
  reason.text ++ ": line " ++ toString line ++ " column " ++ toString column ++
    " (char " ++ toString offset ++ ")"

/-- The defaults with the settings of a file put over them. -/
def override (v : Value) : Record Text.CodePoints Value :=
  match v with
  | .object fields => Record.merge defaults fields
  | _ => defaults

/-- What the file of a directory says, or why it is passed over. -/
def contents (m : Machine) (directory : Path) :
    Except Failure (Except String (Record Text.CodePoints Value)) :=
  match m.readText (fileIn directory).text with
  | .error (.os e) => .ok (.error e.message)
  | .error e => .error e
  | .ok s =>
    match Json.read s with
    | .ok v => .ok (.ok (override v))
    | .error (.wrong reason offset line column) => .ok (.error (errorText reason offset line column))
    | .error (.tooManyDigits count) => .error (.digitsTooMany count)
    | .error (.tooDeep bracket) => .error (.nestedTooDeep bracket)

/-- The warning about a file that is passed over. -/
def warning (directory : Path) (reason : String) : String :=
  "Warning: Ignoring unreadable config " ++ (fileIn directory).text ++ ": " ++ reason

/-- The settings of a directory, which is made if there is none. -/
def load (directory : Path) : Action Machine Store := do
  Machine.makeDirectories directory
  let present ← Action.ask fun m => m.pathExists (fileIn directory).text
  if present then
    match ← Action.ask fun m => contents m directory with
    | .ok values => return { directory, values }
    | .error reason =>
      modify fun m => m.printLine (warning directory reason)
      return { directory, values := defaults }
  else return { directory, values := defaults }

/-- Writes the settings to their file. A file that is opened loses what it holds, and what was
written before something that cannot be written stays in it. -/
def save (s : Store) : Action Machine Unit := do
  Machine.makeDirectories s.directory
  let written := Json.render (.object s.values)
  Machine.writeText (fileIn s.directory).text (String.ofList written.text)
  match written.obstacle? with
  | none => return ()
  | some o => throw (.ofObstacle o)

def get? (s : Store) (name : String) : Option Value := Record.get? s.values name

def value (s : Store) (name : String) : Value := (s.get? name).getD .null

/-- The store with a setting in memory. -/
def put (s : Store) (name : String) (v : Value) : Store :=
  { s with values := Record.put s.values name v }

end Store

end Workbench.Settings
