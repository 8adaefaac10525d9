import Workbench.Artifact
import Workbench.Compiler
import Workbench.Diagnostic.Extract

/-!
# Sessions

A session is all that is shown for one source: its text, the diagnostics, the log of what was done
and the results of the last commands.

* `Session.diagnostics` : the diagnostics of the source that is open;
* `Session.load`, `Session.publish`, `Session.say` : the changes;
* `OutputLog` : the log, of which no line holds a line feed.
-/

namespace Workbench

abbrev OutputLog := List String

namespace OutputLog

/-- The log with a text put at its end. A text of several lines makes several lines. -/
def append (log : OutputLog) (text : String) : OutputLog := log ++ Text.splitLines text

def text (log : OutputLog) : String := Text.joinLines log

end OutputLog

structure Session where
  path : String := ""
  code : String := ""
  lines : List String := []
  /-- the diagnostics of all documents -/
  collection : Collection := []
  output : OutputLog := []
  lastCompilation : Option Compilation := none
  lastExecution : Option Execution := none
  lastLookup : Option Artifact.Lookup := none
  status : String := "idle"
  lastUpdate : Float := 0

namespace Session

def diagnostics (s : Session) : List Diagnostic := s.collection.of s.path

def hasErrors (s : Session) : Bool := Diagnostic.hasErrors s.diagnostics

def errorCount (s : Session) : Nat := Diagnostic.errorCount s.diagnostics

def warningCount (s : Session) : Nat := Diagnostic.warningCount s.diagnostics

/-- The session with the text of its source. -/
def load (s : Session) (code : String) : Session := { s with code, lines := Text.lines code }

/-- The session with diagnostics filed for a document. -/
def file (s : Session) (document : String) (ds : List Diagnostic) : Session :=
  { s with collection := Record.put s.collection document ds }

/-- The session without the diagnostics of a document. -/
def forget (s : Session) (document : String) : Session :=
  { s with collection := Record.erase s.collection document }

/-- The session with the diagnostics of an output filed for a document, and these. -/
def publish (s : Session) (document output : String) : Session × List Diagnostic :=
  let (collection, ds) := s.collection.publish document output
  ({ s with collection }, ds)

/-- The session with a text in its log. -/
def say (s : Session) (text : String) : Session := { s with output := s.output.append text }

end Session

end Workbench
