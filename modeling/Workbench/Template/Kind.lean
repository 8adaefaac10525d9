/-!
# Kinds of things

A template begins with texts, and by names after points it comes to other things: kinds, rows,
numbers, the members of a kind. Every thing is of a kind, and every kind but the most general one
extends another.

* `Kind` : the kinds, with their names;
* `Kind.line` : a kind with those that it extends, the most general one last;
* `Kind.measures`, `Kind.description?`, `Kind.signature?` : what a kind says of itself.
-/

namespace Workbench.Template

inductive Kind
  | text
  /-- what all kinds have in common -/
  | thing
  | kind
  | row
  | number
  | truth
  | nothing
  | record
  /-- the members of a kind by their names -/
  | table
  /-- a kind with a place written after it -/
  | applied
  /-- a member that belongs to a kind and to no thing of it -/
  | shared
  /-- a member that a thing of a kind will have, as yet of no thing -/
  | method
  /-- the same for a member that stands for an operator -/
  | operator
  /-- a member that the kind itself will have -/
  | kindMethod
  /-- a member whose value is found out when it is asked for -/
  | computed
  /-- a member whose value is kept in the thing -/
  | stored
  /-- a member of a thing -/
  | boundMethod
  /-- the same for a member that stands for an operator -/
  | boundOperator
  deriving DecidableEq, Repr

def lines (ls : List String) : String := "\n".intercalate ls

/-- How things of a kind are kept. -/
structure Measures where
  size : Nat
  partSize : Nat
  /-- the traits of the kind, one bit each -/
  traits : Nat
  /-- where a thing notes who watches it, if it does -/
  watchersAt : Nat := 0
  /-- where a thing keeps members of its own, if it does -/
  membersAt : Nat := 0
  deriving DecidableEq, Repr

namespace Kind

def name : Kind → String
  | .text => "str"
  | .thing => "object"
  | .kind => "type"
  | .row => "tuple"
  | .number => "int"
  | .truth => "bool"
  | .nothing => "NoneType"
  | .record => "dict"
  | .table => "mappingproxy"
  | .applied => "GenericAlias"
  | .shared => "staticmethod"
  | .method => "method_descriptor"
  | .operator => "wrapper_descriptor"
  | .kindMethod => "classmethod_descriptor"
  | .computed => "getset_descriptor"
  | .stored => "member_descriptor"
  | .boundMethod => "builtin_function_or_method"
  | .boundOperator => "method-wrapper"

/-- The name of the collection that a kind belongs to. -/
def collection (k : Kind) : String := if k = .applied then "types" else "builtins"

/-- The name of a kind in messages, with that of its collection unless it is the usual one. -/
def fullName (k : Kind) : String :=
  if k = .applied then k.collection ++ "." ++ k.name else k.name

def shown (k : Kind) : String := "<class '" ++ k.fullName ++ "'>"

/-- A kind with those that it extends. -/
def line : Kind → List Kind
  | .thing => [.thing]
  | .truth => [.truth, .number, .thing]
  | k => [k, .thing]

/-- The kind that a kind extends. -/
def base? (k : Kind) : Option Kind := k.line[1]?

/-- How things of a kind are kept. -/
def measures : Kind → Measures
  | .text => { size := 80, partSize := 0, traits := 0x10481500 }
  | .thing => { size := 16, partSize := 0, traits := 0x81500 }
  | .kind =>
    { size := 904, partSize := 40, traits := 0x80085d00, watchersAt := 368, membersAt := 264 }
  | .row => { size := 24, partSize := 8, traits := 0x4485520 }
  | .number => { size := 24, partSize := 4, traits := 0x1481500 }
  | .truth => { size := 32, partSize := 4, traits := 0x1481100 }
  | .nothing => { size := 16, partSize := 0, traits := 0x81100 }
  | .record => { size := 48, partSize := 0, traits := 0x20485540 }
  | .table => { size := 24, partSize := 0, traits := 0x85140 }
  | .applied => { size := 64, partSize := 0, traits := 0x85d00, watchersAt := 40 }
  | .shared => { size := 32, partSize := 0, traits := 0x85500, membersAt := 24 }
  | .method => { size := 56, partSize := 0, traits := 0xa5980 }
  | .operator => { size := 56, partSize := 0, traits := 0xa5180 }
  | .kindMethod => { size := 56, partSize := 0, traits := 0x85180 }
  | .computed | .stored => { size := 48, partSize := 0, traits := 0x85180 }
  | .boundMethod => { size := 56, partSize := 0, traits := 0x85980, watchersAt := 40 }
  | .boundOperator => { size := 32, partSize := 0, traits := 0x85180 }

/-- How a thing of a kind is made, if the kind says so. -/
def signature? : Kind → Option String
  | .thing => "()"
  | .row => "(iterable=(), /)"
  | _ => none

def description? : Kind → Option String
  | .text => lines [
    "str(object='') -> str",
    "str(bytes_or_buffer[, encoding[, errors]]) -> str",
    "",
    "Create a new string object from the given object. If encoding or",
    "errors is specified, then the object must expose a data buffer",
    "that will be decoded using the given encoding and error handler.",
    "Otherwise, returns the result of object.__str__() (if defined)",
    "or repr(object).",
    "encoding defaults to sys.getdefaultencoding().",
    "errors defaults to 'strict'."]
  | .thing => lines [
    "The base class of the class hierarchy.",
    "",
    "When called, it accepts no arguments and returns a new featureless",
    "instance that has no instance attributes and cannot be given any.",
    ""]
  | .kind => lines [
    "type(object) -> the object's type",
    "type(name, bases, dict, **kwds) -> a new type"]
  | .row => lines [
    "Built-in immutable sequence.",
    "",
    "If no argument is given, the constructor returns an empty tuple.",
    "If iterable is specified the tuple is initialized from iterable's items.",
    "",
    "If the argument is a tuple, the return value is the same object."]
  | .number => lines [
    "int([x]) -> integer",
    "int(x, base=10) -> integer",
    "",
    "Convert a number or string to an integer, or return 0 if no arguments",
    "are given.  If x is a number, return x.__int__().  For floating point",
    "numbers, this truncates towards zero.",
    "",
    "If x is not a number or if base is given, then x must be a string,",
    "bytes, or bytearray instance representing an integer literal in the",
    "given base.  The literal can be preceded by '+' or '-' and be surrounded",
    "by whitespace.  The base defaults to 10.  Valid bases are 0 and 2-36.",
    "Base 0 means to interpret the base from the string as an integer literal.",
    ">>> int('0b100', base=0)",
    "4"]
  | .truth => lines [
    "bool(x) -> bool",
    "",
    "Returns True when the argument x is true, False otherwise.",
    "The builtins True and False are the only two instances of the class bool.",
    "The class bool is a subclass of the class int, and cannot be subclassed."]
  | .record => lines [
    "dict() -> new empty dictionary",
    "dict(mapping) -> new dictionary initialized from a mapping object's",
    "    (key, value) pairs",
    "dict(iterable) -> new dictionary initialized as if via:",
    "    d = \x7b\x7d",
    "    for k, v in iterable:",
    "        d[k] = v",
    "dict(**kwargs) -> new dictionary initialized with the name=value pairs",
    "    in the keyword argument list.  For example:  dict(one=1, two=2)"]
  | .applied => lines [
    "Represent a PEP 585 generic type",
    "",
    "E.g. for t = list[int], t.__origin__ is list and t.__args__ is (int,)."]
  | .shared => lines [
    "staticmethod(function) -> method",
    "",
    "Convert a function to be a static method.",
    "",
    "A static method does not receive an implicit first argument.",
    "To declare a static method, use this idiom:",
    "",
    "     class C:",
    "         @staticmethod",
    "         def f(arg1, arg2, argN):",
    "             ...",
    "",
    "It can be called either on the class (e.g. C.f()) or on an instance",
    "(e.g. C().f()). Both the class and the instance are ignored, and",
    "neither is passed implicitly as the first argument to the method.",
    "",
    "Static methods in Python are similar to those found in Java or C++.",
    "For a more advanced concept, see the classmethod builtin."]
  | _ => none

end Kind

end Workbench.Template
