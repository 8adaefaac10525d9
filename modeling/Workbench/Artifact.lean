import Workbench.Machine.Basic
import Workbench.Record

/-!
# The compiled program

A compiler does not say what it calls the program it makes. So a list of templates says where the
program may be, and the first of these places where there is something is taken for it.

* `Artifact.defaultTemplates` : where compilers usually put a program;
* `Artifact.values cwd source` : what the fields of a template stand for;
* `Artifact.candidates cwd source templates` : the paths to look at, in order, with what is wrong
  with their texts;
* `Artifact.locate m source templates` : the first of them at which there is something, with those
  that were looked at.
-/

namespace Workbench.Artifact

open Settings (Value)
open Text (CodePoints)

/-- Where compilers usually put a program: beside the source or a level or two above it. -/
def defaultTemplates : List String := [
  "\x7bdir\x7d/\x7bbase\x7d.exe",
  "\x7bdir\x7d/\x7bbase\x7d",
  "\x7bdir\x7d/\x7bbase\x7d.out",
  "\x7bdir\x7d/a.out",
  "\x7bdir\x7d/a.exe",
  "\x7bdir\x7d/output.exe",
  "\x7bdir\x7d/out.exe",
  "\x7bparent\x7d/\x7bbase\x7d.exe",
  "\x7bparent\x7d/output/\x7bbase\x7d.exe",
  "\x7bparent\x7d/\x7bbase\x7d",
  "\x7bgrandparent\x7d/\x7bbase\x7d.exe"]

/-- What the fields of a template stand for: the directory of the source, the two above it, and the
name of the source without its suffix. -/
def values (cwd source : String) : Record String String :=
  let p := Path.absolute cwd source
  let directory := p.parent
  [("dir", directory.text), ("parent", directory.parent.text),
    ("grandparent", directory.parent.parent.text), ("base", p.stem)]

/-- The failure of a template, which is shown quoted. -/
def templateFailure (template : Value) (fault : Template.Fault) : Failure :=
  match template.quoted? with
  | some t => .badTemplate t fault
  | none => .numberTooLong

/-- What the system is given for a path. -/
inductive Passing
  /-- its text -/
  | text
  /-- bytes, shown as the characters with their numbers -/
  | bytes (p : Path)
  /-- nothing, as some halves of its text stand for no byte -/
  | never (h : Text.Halves)
  deriving DecidableEq, Repr

/-- A path at which a program may be. Its names are those of the system, or if they are no texts, then
they are shown with the replacement character for each half. -/
structure Candidate where
  path : Path
  passing : Passing := .text
  deriving DecidableEq, Repr

/-- The candidate with a text. Halves that cannot be passed are placed in the text of the path, which
may be shorter than the one given. -/
def Candidate.ofText (s : CodePoints) : Candidate :=
  match s.passed with
  | .text t => { path := Path.ofText t }
  | .bytes bs =>
    let name := (Utf8.decode bs).toOption.getD s.shown
    { path := Path.ofText name, passing := .bytes (Path.ofBytes bs) }
  | .never h =>
    let upTo : CodePoints := s.take (h.offset + 1)
    { path := Path.ofText s.shown
      passing := .never { h with offset := (Path.ofText upTo.shown).text.length - 1 } }

/-- The answer of the system to the question what is at a candidate. -/
def Candidate.status (m : Machine) (c : Candidate) : Except Failure Machine.Node :=
  match c.passing with
  | .text => m.stat c.path.text
  | .bytes p => m.statBytes p c.path.text
  | .never h => .error (.unwritable h)

/-- Does something exist, when asked with `stat`? A path that leads nowhere and one that cannot be
asked for do not. -/
def Candidate.exists? (m : Machine) (c : Candidate) : Except Failure Bool :=
  match c.status m with
  | .ok _ => .ok true
  | .error (.os e) => if e.fault.meansNo then .ok false else .error (.os e)
  | .error _ => .ok false

def candidate (fields : Record String String) (template : Value) : Except Failure Candidate :=
  match template with
  | .text t =>
    match Template.expand fields.get? t with
    | .ok s => .ok (.ofText s)
    | .error fault =>
      .error (if fault.isInTemplate then templateFailure template fault else .misuse fault)
  | v => .error (templateFailure v (.noAttribute v.kind "format"))

/-- The candidates that templates stand for, in order. -/
def candidatesFor (fields : Record String String) :
    List Value → Except Failure (List Candidate)
  | [] => .ok []
  | t :: rest =>
    match candidate fields t with
    | .error e => .error e
    | .ok p =>
      match candidatesFor fields rest with
      | .ok ps => .ok (p :: ps)
      | .error e => .error e

/-- The paths at which the program of a source may be. -/
def candidates (cwd source : String) (templates : List Value) : Except Failure (List Candidate) :=
  candidatesFor (values cwd source) templates

structure Lookup where
  /-- where the program is -/
  path : Option Path
  /-- the paths that were looked at, in order -/
  candidates : List Path
  deriving DecidableEq, Repr

def Lookup.found (l : Lookup) : Bool := l.path.isSome

/-- Is there something at a candidate? A question that the system refuses is a failure of its
own. -/
def present (m : Machine) (c : Candidate) : Except Failure Bool :=
  match c.status m with
  | .ok _ => .ok true
  | .error (.os e) => if e.fault.isAbsence then .ok false else .error (.cannotCheck c.path.text e)
  | .error e => .error e

/-- The first candidate at which there is something. -/
def search (m : Machine) : List Candidate → Except Failure Lookup
  | [] => .ok { path := none, candidates := [] }
  | c :: rest =>
    match present m c with
    | .error e => .error e
    | .ok true => .ok { path := some c.path, candidates := [c.path] }
    | .ok false =>
      match search m rest with
      | .ok l => .ok { l with candidates := c.path :: l.candidates }
      | .error e => .error e

/-- Looks for the program of a source. All templates are expanded before anything is looked at. -/
def locate (m : Machine) (source : String) (templates : List Value) : Except Failure Lookup :=
  match candidates m.directoryText source templates with
  | .ok cs => search m cs
  | .error e => .error e

/-- The templates that a setting adds: the items of a list, the names of an object or the characters
of a text. -/
def templatesOf (setting : Value) : Except Failure (List Value) :=
  if setting.holds then
    match setting with
    | .list items => .ok items
    | .object fields => .ok (fields.map fun f => .text f.1)
    | .text s => .ok (s.map fun c => .text [c])
    | v => .error (.notIterable v.kind)
  else .ok []

/-- Looks for the program of a source at the default places and at those that a setting adds. -/
def locateWith (m : Machine) (source : String) (extra : Value) : Except Failure Lookup :=
  match templatesOf extra with
  | .ok ts => locate m source (defaultTemplates.map (fun t => .text t) ++ ts)
  | .error e => .error e

end Workbench.Artifact
