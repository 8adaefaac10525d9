/-!
# Members

A kind has members, each under a name. Most of them could be called; a template only reaches them,
so what counts of a member is what it says of itself.

* `Member` : name, sort, signature and description of a member;
* `Member.operators names` : the members that stand for operators, which say the same of themselves
  in every kind.
-/

namespace Workbench.Template

inductive Member.Sort
  | method
  | operator
  /-- belongs to the kind itself -/
  | kindMethod
  /-- belongs to no thing of the kind -/
  | shared
  /-- its value is found out when it is asked for -/
  | computed
  /-- its value is kept in the thing -/
  | stored
  /-- makes a thing of the kind -/
  | maker
  /-- its value is the description of the kind -/
  | description
  /-- its value is nothing -/
  | absent
  deriving DecidableEq, Repr

structure Member where
  name : String
  sort : Member.Sort
  signature? : Option String := none
  description? : Option String := none
  deriving DecidableEq, Repr

namespace Member

def method (name : String) (signature description : Option String) : Member :=
  { name, sort := .method, signature? := signature, description? := description }

def kindMethod (name : String) (signature description : Option String) : Member :=
  { name, sort := .kindMethod, signature? := signature, description? := description }

def shared (name : String) (signature description : Option String) : Member :=
  { name, sort := .shared, signature? := signature, description? := description }

def computed (name : String) (description : Option String) : Member :=
  { name, sort := .computed, description? := description }

def stored (name : String) (description : Option String) : Member :=
  { name, sort := .stored, description? := description }

def absent (name : String) : Member := { name, sort := .absent }

/-- The member that makes things. -/
def maker : Member :=
  { name := "__new__", sort := .maker, signature? := "($type, *args, **kwargs)"
    description? := "Create and return a new object.  See help(type) for accurate signature." }

def description : Member := { name := "__doc__", sort := .description }

/-- Is the value of a member found before whatever else its name may lead to? -/
def isData (m : Member) : Bool := m.sort = .computed || m.sort = .stored

/-! ## Operators -/

def operator (name signature description : String) : Member :=
  { name, sort := .operator, signature? := signature, description? := description }

/-- An operator on a thing alone. -/
def unary (name description : String) : Member := operator name "($self, /)" description

/-- An operator on a thing and a value. -/
def binary (name result : String) : Member :=
  operator name "($self, value, /)" ("Return " ++ result ++ ".")

/-- An operator between a thing and a value, and the same one with the two exchanged. -/
def twoSided (name symbol : String) : List Member :=
  [binary ("__" ++ name ++ "__") ("self" ++ symbol ++ "value"),
    binary ("__r" ++ name ++ "__") ("value" ++ symbol ++ "self")]

def allOperators : List Member :=
  [ unary "__repr__" "Return repr(self).",
    unary "__hash__" "Return hash(self).",
    unary "__str__" "Return str(self).",
    unary "__iter__" "Implement iter(self).",
    unary "__len__" "Return len(self).",
    unary "__neg__" "-self",
    unary "__pos__" "+self",
    unary "__abs__" "abs(self)",
    unary "__bool__" "True if self else False",
    unary "__invert__" "~self",
    unary "__int__" "int(self)",
    unary "__float__" "float(self)",
    unary "__index__"
      ("Return self converted to an integer, if self is suitable for use as an index into a " ++
        "list."),
    binary "__lt__" "self<value",
    binary "__le__" "self<=value",
    binary "__eq__" "self==value",
    binary "__ne__" "self!=value",
    binary "__gt__" "self>value",
    binary "__ge__" "self>=value",
    binary "__divmod__" "divmod(self, value)",
    binary "__rdivmod__" "divmod(value, self)",
    binary "__ior__" "self|=value"] ++
  twoSided "add" "+" ++
  twoSided "sub" "-" ++
  twoSided "mul" "*" ++
  twoSided "mod" "%" ++
  twoSided "floordiv" "//" ++
  twoSided "truediv" "/" ++
  twoSided "lshift" "<<" ++
  twoSided "rshift" ">>" ++
  twoSided "and" "&" ++
  twoSided "xor" "^" ++
  twoSided "or" "|" ++
  [ operator "__pow__" "($self, value, mod=None, /)" "Return pow(self, value, mod).",
    operator "__rpow__" "($self, value, mod=None, /)" "Return pow(value, self, mod).",
    operator "__getitem__" "($self, key, /)" "Return self[key].",
    operator "__setitem__" "($self, key, value, /)" "Set self[key] to value.",
    operator "__delitem__" "($self, key, /)" "Delete self[key].",
    operator "__contains__" "($self, key, /)" "Return key in self.",
    operator "__getattribute__" "($self, name, /)" "Return getattr(self, name).",
    operator "__setattr__" "($self, name, value, /)" "Implement setattr(self, name, value).",
    operator "__delattr__" "($self, name, /)" "Implement delattr(self, name).",
    operator "__init__" "($self, /, *args, **kwargs)"
      "Initialize self.  See help(type(self)) for accurate signature.",
    operator "__call__" "($self, /, *args, **kwargs)" "Call self as a function.",
    operator "__get__" "($self, instance, owner=None, /)"
      "Return an attribute of instance, which is of type owner.",
    operator "__set__" "($self, instance, value, /)" "Set an attribute of instance to value.",
    operator "__delete__" "($self, instance, /)" "Delete an attribute of instance."]

def words (s : String) : List String := (s.splitOn " ").filter (· ≠ "")

def operators (names : String) : List Member :=
  (words names).filterMap fun name => allOperators.find? (·.name = name)

end Member

end Workbench.Template
