import Workbench.Text.Quoted

/-!
# Faults of the operating system

A call to the system may fail with one of a fixed set of faults, each with a number and a text.

* `Fault.number`, `Fault.text` : how a fault is shown;
* `Fault.isAbsence` : the faults that mean that there is nothing at a path;
* `OsError` : a fault with the path that it was noticed at.
-/

namespace Workbench.Machine

/-- Why the system refuses a call. -/
inductive Fault
  | notPermitted
  | missing
  | inputOutput
  | tooManyArguments
  | notExecutable
  | badHandle
  | denied
  | alreadyThere
  | notDirectory
  | isDirectory
  | noSpace
  | readOnly
  | nameTooLong
  | linkLoop
  deriving DecidableEq, Repr

namespace Fault

def number : Fault → Nat
  | .notPermitted => 1
  | .missing => 2
  | .inputOutput => 5
  | .tooManyArguments => 7
  | .notExecutable => 8
  | .badHandle => 9
  | .denied => 13
  | .alreadyThere => 17
  | .notDirectory => 20
  | .isDirectory => 21
  | .noSpace => 28
  | .readOnly => 30
  | .nameTooLong => 36
  | .linkLoop => 40

def text : Fault → String
  | .notPermitted => "Operation not permitted"
  | .missing => "No such file or directory"
  | .inputOutput => "Input/output error"
  | .tooManyArguments => "Argument list too long"
  | .notExecutable => "Exec format error"
  | .badHandle => "Bad file descriptor"
  | .denied => "Permission denied"
  | .alreadyThere => "File exists"
  | .notDirectory => "Not a directory"
  | .isDirectory => "Is a directory"
  | .noSpace => "No space left on device"
  | .readOnly => "Read-only file system"
  | .nameTooLong => "File name too long"
  | .linkLoop => "Too many levels of symbolic links"

/-- The faults with which a path leads nowhere. -/
def isAbsence (f : Fault) : Bool := f = .missing || f = .notDirectory

/-- The faults that answer the question whether something exists with no. -/
def meansNo (f : Fault) : Bool := f.isAbsence || f = .badHandle || f = .linkLoop

end Fault

/-- A fault and the path, as it was given, at which it was noticed. -/
structure OsError where
  fault : Fault
  path : String
  deriving DecidableEq, Repr

def OsError.message (e : OsError) : String :=
  "[Errno " ++ toString e.fault.number ++ "] " ++ e.fault.text ++ ": " ++ Text.quoted e.path

end Workbench.Machine
