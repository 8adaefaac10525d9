import Workbench.Json.Printer
import Workbench.Machine.Fault
import Workbench.Number.Decimal
import Workbench.Shell
import Workbench.Template
import Workbench.Text.Utf8

/-!
# Failures

* `Failure` : the reasons for which a piece of work ends without a result;
* `Failure.message` : the text that is shown for one;
* `Action σ α` : work on a state of type `σ`. It ends with a result or a failure, and with a state
  in both cases: what was done before a failure stays done.
-/

namespace Workbench

/-- Why a piece of work has no result. -/
inductive Failure
  /-- the system refused a call -/
  | os (e : Machine.OsError)
  /-- a path or a word with a null character cannot be passed to the system -/
  | nullInPath
  /-- a file or an output that should be text is not -/
  | notText (e : Utf8.Error)
  /-- a whole number has too many digits to be written -/
  | numberTooLong
  /-- a whole number of a file has too many digits to be read -/
  | digitsTooMany (count : Nat)
  /-- a setting has no JSON -/
  | notSerializable (kind : String)
  /-- a list or an object is met inside itself -/
  | circular
  /-- lists and objects are nested too deep to be written -/
  | writtenTooDeep
  /-- compiler arguments cannot be split into words -/
  | badArguments (e : Shell.SplitError)
  /-- a setting that should be a path is of another kind -/
  | notPath (kind : String)
  /-- a setting that should be a text is of another kind -/
  | notReadable (kind : String)
  /-- a setting that should be a list is of another kind -/
  | notIterable (kind : String)
  /-- lists and objects of a file are nested too deep -/
  | nestedTooDeep (bracket : Json.Bracket)
  /-- a path or a word with half a surrogate pair cannot be passed to the system -/
  | unwritable (h : Text.Halves)
  /-- a setting that should be a number of seconds is of another kind -/
  | notSeconds (kind : String)
  /-- a number of seconds is beyond all floating-point numbers -/
  | secondsTooMany
  /-- a number of seconds is too great for the system to wait -/
  | waitTooLong
  /-- a candidate template has no text; it is shown quoted -/
  | badTemplate (template : String) (fault : Template.Fault)
  /-- a template asks for what cannot be had from the things that it reaches -/
  | misuse (fault : Template.Fault)
  /-- it cannot be found out whether there is a file at a path -/
  | cannotCheck (path : String) (cause : Machine.OsError)
  /-- the links on a path lead in a circle -/
  | linkCircle (path : String)
  | nothingToWatch (path : String)
  /-- a watcher was started a second time -/
  | startedTwice
  /-- a string that is to be shown has marks of styles that cannot be read -/
  | markup (message : String)
  deriving DecidableEq, Repr

/-- The text of an error in a file that should be text. -/
def Utf8.Error.message (e : Utf8.Error) : String :=
  let place :=
    if e.length = 1 then
      "byte 0x" ++ String.ofList (Text.hex 2 e.first.toNat) ++ " in position " ++ toString e.offset
    else
      "bytes in position " ++ toString e.offset ++ "-" ++ toString (e.offset + e.length - 1)
  "'utf-8' codec can't decode " ++ place ++ ": " ++ e.reason.text

/-- What is said about a text with halves that should be written. -/
def Text.Halves.message (h : Text.Halves) : String :=
  let place :=
    if h.length = 1 then
      "character " ++ Text.CodePoints.quoted [h.first] ++ " in position " ++ toString h.offset
    else
      "characters in position " ++ toString h.offset ++ "-" ++ toString (h.offset + h.length - 1)
  "'utf-8' codec can't encode " ++ place ++ ": surrogates not allowed"

def Json.Bracket.name : Json.Bracket → String
  | .list => "array"
  | .object => "object"

/-- The text of an error in typed words. -/
def Shell.SplitError.message : Shell.SplitError → String
  | .openQuote => "No closing quotation"
  | .danglingEscape => "No escaped character"

def Failure.message : Failure → String
  | .os e => e.message
  | .nullInPath => "embedded null byte"
  | .notText e => e.message
  | .numberTooLong =>
    "Exceeds the limit (" ++ toString Number.digitLimit ++
      " digits) for integer string conversion; use sys.set_int_max_str_digits() to increase the limit"
  | .digitsTooMany count =>
    "Exceeds the limit (" ++ toString Number.digitLimit ++
      " digits) for integer string conversion: value has " ++ toString count ++
      " digits; use sys.set_int_max_str_digits() to increase the limit"
  | .notSerializable kind => "Object of type " ++ kind ++ " is not JSON serializable"
  | .circular => "Circular reference detected"
  | .writtenTooDeep => "maximum recursion depth exceeded while calling a Python object"
  | .badArguments e => e.message
  | .notPath kind => "expected str, bytes or os.PathLike object, not " ++ kind
  | .notReadable kind => "'" ++ kind ++ "' object has no attribute 'read'"
  | .notIterable kind => "'" ++ kind ++ "' object is not iterable"
  | .badTemplate template fault =>
    "Invalid artifact candidate " ++ template ++ ": " ++ fault.describe
  | .nestedTooDeep bracket =>
    "maximum recursion depth exceeded while decoding a JSON " ++ bracket.name ++
      " from a unicode string"
  | .unwritable h => h.message
  | .notSeconds kind => "unsupported operand type(s) for +: 'float' and '" ++ kind ++ "'"
  | .secondsTooMany => "int too large to convert to float"
  | .waitTooLong => "timeout is too large"
  | .misuse fault => fault.message.shown
  | .cannotCheck path cause => "Cannot check " ++ path ++ ": " ++ cause.message
  | .linkCircle path => "Symlink loop from " ++ Text.quoted path
  | .nothingToWatch path => "Cannot watch non-existent file: " ++ path
  | .startedTwice => "threads can only be started once"
  | .markup message => message

/-- The failure of writing a value up to an obstacle. -/
def Failure.ofObstacle : Json.Obstacle → Failure
  | .longNumber => .numberTooLong
  | .foreign f => if f.circular then .circular else .notSerializable f.kind
  | .depth => .writtenTooDeep

abbrev Action (σ α : Type) := ExceptT Failure (StateM σ) α

namespace Action

variable {σ τ α : Type}

/-- A question about the state. -/
def ask (f : σ → Except Failure α) : Action σ α := fun s => (f s, s)

/-- Work on a part of the state. -/
def on (get : σ → τ) (put : τ → σ → σ) (a : Action τ α) : Action σ α := fun s =>
  let (r, t) := a (get s)
  (r, put t s)

@[simp] theorem ask_apply (f : σ → Except Failure α) (s : σ) : ask f s = (f s, s) := rfl

@[simp] theorem on_apply (get : σ → τ) (put : τ → σ → σ) (a : Action τ α) (s : σ) :
    on get put a s = ((a (get s)).1, put (a (get s)).2 s) := rfl

@[simp] theorem pure_apply (a : α) (s : σ) : (pure a : Action σ α) s = (.ok a, s) := rfl

@[simp] theorem throw_apply (e : Failure) (s : σ) :
    (throw e : Action σ α) s = (.error e, s) := rfl

@[simp] theorem get_apply (s : σ) : (get : Action σ σ) s = (.ok s, s) := rfl

@[simp] theorem set_apply (t s : σ) : (set t : Action σ PUnit) s = (.ok ⟨⟩, t) := rfl

@[simp] theorem modify_apply (f : σ → σ) (s : σ) :
    (modify f : Action σ PUnit) s = (.ok ⟨⟩, f s) := rfl

theorem bind_apply {β : Type} (a : Action σ α) (f : α → Action σ β) (s : σ) :
    (a >>= f) s = match a s with
      | (.ok x, t) => f x t
      | (.error e, t) => (.error e, t) := by
  cases h : a s with
  | mk r t =>
    show ExceptT.bindCont f (a s).1 (a s).2 = _
    rw [h]
    cases r <;> rfl

theorem bind_eq_of_ok {β : Type} {a : Action σ α} {f : α → Action σ β} {s t : σ} {x : α}
    (h : a s = (.ok x, t)) : (a >>= f) s = f x t := by
  rw [bind_apply, h]

/-- Work has a result if both of its parts have one. -/
theorem bind_eq_ok {β : Type} {a : Action σ α} {f : α → Action σ β} {s u : σ} {y : β} :
    (a >>= f) s = (.ok y, u) ↔ ∃ x t, a s = (.ok x, t) ∧ f x t = (.ok y, u) := by
  constructor
  · intro h
    rw [bind_apply] at h
    split at h
    · next x t ha => exact ⟨x, t, ha, h⟩
    · exact absurd (congrArg Prod.fst h) (by simp)
  · rintro ⟨x, t, ha, hf⟩
    rw [bind_eq_of_ok ha, hf]

end Action

end Workbench
