import Workbench.Text.Digit
import Workbench.Text.Quoted

/-!
# Command-line arguments

The command line names a file and at most one mode. Options may stand before and after the file and
may be cut short as long as they stay unique; after `--` there are no more options.

* `Word.classify` : what a word is, looked at by itself;
* `Arguments.read` : what a command line asks for, or what is wrong with it.
-/

namespace Workbench.CommandLine

/-- What to do with the file instead of showing it. -/
inductive Mode
  | compile
  | run
  | check
  | probe
  deriving DecidableEq, Repr

/-- The options of the command line. -/
inductive Flag
  | help
  | mode (m : Mode)
  deriving DecidableEq, Repr

def Mode.option : Mode → String
  | .compile => "--compile"
  | .run => "--run"
  | .check => "--check"
  | .probe => "--debug"

namespace Flag

/-- The short word for help, the only option that has one. -/
def shortHelp : String := "-h"

def words : List (String × Flag) :=
  (shortHelp, .help) :: ("--help", .help) ::
    [Mode.compile, .run, .check, .probe].map fun m => (m.option, .mode m)

def ofWord? (w : String) : Option Flag := (words.find? fun e => e.1 = w).map Prod.snd

def name : Flag → String
  | .help => "-h/--help"
  | .mode m => m.option

end Flag

inductive Word
  /-- the file, or something in the way -/
  | operand
  /-- an option, perhaps a short one, with what is written behind it in the same word -/
  | flag (f : Flag) (short : Bool) (attached : Option (List Char))
  /-- something like an option that is none -/
  | unknown
  deriving DecidableEq, Repr

namespace Word

/-- A text cut at its first equals sign. -/
def atEquals (s : List Char) : List Char × Option (List Char) :=
  match s.dropWhile (· ≠ '=') with
  | [] => (s, none)
  | _ :: rest => (s.takeWhile (· ≠ '='), some rest)

/-- Is a text a number after a minus sign, with or without a decimal point? It may be followed by a
line feed. -/
def isNegativeNumber (s : List Char) : Bool :=
  match s with
  | '-' :: body =>
    let body := if body.getLast? = some '\n' then body.dropLast else body
    match body.dropWhile Text.isDigit with
    | [] => body ≠ []
    | '.' :: places => places ≠ [] && places.all Text.isDigit
    | _ => false
  | _ => false

/-- The long options that begin as a text does. -/
def completions (start : String) : List (String × Flag) :=
  Flag.words.filter fun e => start.toList.isPrefixOf e.1.toList

/-- A word with a hyphen in front that is no option. -/
def notOption (s : List Char) : Word :=
  if isNegativeNumber s || ' ' ∈ s then .operand else .unknown

/-- What a word is. A cut option that could be several ones is an error, which names them. -/
def classify (w : String) : Except (List String) Word :=
  match w.toList with
  | [] => .ok .operand
  | ['-'] => .ok .operand
  | '-' :: second :: rest =>
    let s := '-' :: second :: rest
    match Flag.ofWord? w with
    | some f => .ok (.flag f (second ≠ '-') none)
    | none =>
      let (start, attached) := atEquals s
      match attached, Flag.ofWord? (String.ofList start) with
      | some a, some f => .ok (.flag f (second ≠ '-') (some a))
      | _, _ =>
        if second = '-' then
          match completions (String.ofList start) with
          | [] => .ok (notOption s)
          | [(_, f)] => .ok (.flag f false attached)
          | several => .error (several.map Prod.fst)
        else if second = 'h' then .ok (.flag .help true (some rest))
        else .ok (notOption s)
  | _ => .ok .operand

end Word

/-- What a command line asks for. -/
structure Arguments where
  file : Option String := none
  mode : Option Mode := none
  deriving DecidableEq, Repr

/-- How the reading of a command line ends. -/
inductive Reading
  | help
  | wrong (message : String)
  | arguments (a : Arguments)
  deriving DecidableEq, Repr

namespace Arguments

/-- What has been read, with the words that nobody wants. -/
structure Progress where
  arguments : Arguments := {}
  leftOver : List String := []

/-- The reading at the end of all words. -/
def Progress.finish (p : Progress) : Reading :=
  if p.leftOver = [] then .arguments p.arguments
  else .wrong ("unrecognized arguments: " ++ " ".intercalate p.leftOver)

/-- The progress with more words that nobody wants. -/
def Progress.leave (p : Progress) (words : List String) : Progress :=
  { p with leftOver := p.leftOver ++ words }

/-- The message about what is written behind an option that takes nothing. -/
def ignored (f : Flag) (text : List Char) : Reading :=
  .wrong ("argument " ++ f.name ++ ": ignored explicit argument " ++
    Text.quoted (String.ofList text))

/-- The reading of the short option for help with letters behind it, which may ask for help again
and for nothing else. -/
def shortHelp (letters : List Char) : Reading :=
  match letters.dropWhile (· = 'h') with
  | [] => .help
  | rest => ignored .help rest

/-- The progress after a mode, unless there was another one. -/
def Progress.setMode (p : Progress) (m : Mode) : Except Reading Progress :=
  match p.arguments.mode with
  | none => .ok { p with arguments := { p.arguments with mode := some m } }
  | some m' =>
    if m' = m then .ok p
    else
      .error (.wrong ("argument " ++ m.option ++ ": not allowed with argument " ++ m'.option))

def Progress.setFlag (p : Progress) (f : Flag) (short : Bool) (attached : Option (List Char)) :
    Except Reading Progress :=
  match attached, f with
  | none, .help => .error .help
  | none, .mode m => p.setMode m
  | some letters, _ =>
    if short && letters ≠ [] then .error (shortHelp letters) else .error (ignored f letters)

/-- The reading of the words after `--`, the first of which is the file unless there is one. -/
def readOperands (p : Progress) (words : List String) : Reading :=
  match p.arguments.file, words with
  | some _, words => (p.leave ("--" :: words)).finish
  | none, [] => p.finish
  | none, file :: rest =>
    ({ p with arguments := { p.arguments with file := some file } }.leave rest).finish

/-- The reading of words that have been classified. A file may be followed by a `--` of its own. -/
def readWords (p : Progress) : List (String × Word) → List String → Reading
  | [], operands =>
    match operands with
    | [] => p.finish
    | _ :: words => readOperands p words
  | [(w, .operand)], _ :: words =>
    match p.arguments.file with
    | none => ({ p with arguments := { p.arguments with file := some w } }.leave words).finish
    | some _ => readOperands (p.leave [w]) words
  | (w, .operand) :: rest, operands =>
    match p.arguments.file with
    | none => readWords { p with arguments := { p.arguments with file := some w } } rest operands
    | some _ => readWords (p.leave [w]) rest operands
  | (w, .unknown) :: rest, operands => readWords (p.leave [w]) rest operands
  | (_, .flag f short attached) :: rest, operands =>
    match p.setFlag f short attached with
    | .ok p => readWords p rest operands
    | .error r => r

/-- The words with what they are, or the message about the first one that is not unique. -/
def classifyAll : List String → Except String (List (String × Word))
  | [] => .ok []
  | w :: rest =>
    match Word.classify w with
    | .error options =>
      .error ("ambiguous option: " ++ w ++ " could match " ++ ", ".intercalate options)
    | .ok word =>
      match classifyAll rest with
      | .ok words => .ok ((w, word) :: words)
      | .error e => .error e

def read (words : List String) : Reading :=
  match classifyAll (words.takeWhile (· ≠ "--")) with
  | .error message => .wrong message
  | .ok classified => readWords {} classified (words.dropWhile (· ≠ "--"))

end Arguments

end Workbench.CommandLine
