import Workbench.Template.Member.Number
import Workbench.Template.Member.Text

/-!
# The members of every kind

* `Kind.members k` : the members that a kind has itself, in their order;
* `Kind.find? k name` : the first kind in the line of `k` that has a member of that name, with the
  member.
-/

namespace Workbench.Template

namespace Member

def ofThing : List Member :=
  [maker] ++
  operators
    ("__repr__ __hash__ __str__ __getattribute__ __setattr__ __delattr__ __lt__ " ++
      "__le__ __eq__ __ne__ __gt__ __ge__ __init__") ++
  [ method "__reduce_ex__" "($self, protocol, /)" "Helper for pickle.",
    method "__reduce__" "($self, /)" "Helper for pickle.",
    method "__getstate__" "($self, /)" "Helper for pickle.",
    kindMethod "__subclasshook__" none (lines [
      "Abstract classes can override this to customize issubclass().",
      "",
      "This is invoked early on by abc.ABCMeta.__subclasscheck__().",
      "It should return True, False or NotImplemented.  If it returns",
      "NotImplemented, the normal algorithm is used.  Otherwise, it",
      "overrides the normal algorithm (and the outcome is cached).",
      ""]),
    kindMethod "__init_subclass__" none (lines [
      "This method is called when a class is subclassed.",
      "",
      "The default implementation does nothing. It may be",
      "overridden to extend subclasses.",
      ""]),
    method "__format__" "($self, format_spec, /)" "Default object formatter.",
    method "__sizeof__" "($self, /)" "Size of object in memory, in bytes.",
    method "__dir__" "($self, /)" "Default dir() implementation.",
    computed "__class__" "the object's class",
    description]

def ofKind : List Member :=
  [maker] ++
  operators
    ("__repr__ __call__ __getattribute__ __setattr__ __delattr__ __init__ __or__ " ++
      "__ror__") ++
  [ method "mro" "($self, /)" "Return a type's method resolution order.",
    method "__subclasses__" "($self, /)" "Return a list of immediate subclasses.",
    kindMethod "__prepare__" none (lines [
      "__prepare__() -> dict",
      "used to create the namespace for the class statement"]),
    method "__instancecheck__" "($self, instance, /)" "Check if an object is an instance.",
    method "__subclasscheck__" "($self, subclass, /)" "Check if a class is a subclass.",
    method "__dir__" "($self, /)" "Specialized __dir__ implementation for types.",
    method "__sizeof__" "($self, /)" "Return memory consumption of the type object.",
    stored "__basicsize__" none,
    stored "__itemsize__" none,
    stored "__flags__" none,
    stored "__weakrefoffset__" none,
    stored "__base__" none,
    stored "__dictoffset__" none,
    stored "__mro__" none,
    computed "__name__" none,
    computed "__qualname__" none,
    computed "__bases__" none,
    computed "__module__" none,
    computed "__abstractmethods__" none,
    computed "__dict__" none,
    computed "__doc__" none,
    computed "__text_signature__" none,
    computed "__annotations__" none]

def ofRow : List Member :=
  [maker] ++
  operators
    ("__repr__ __hash__ __getattribute__ __lt__ __le__ __eq__ __ne__ __gt__ __ge__ " ++
      "__iter__ __len__ __getitem__ __add__ __mul__ __rmul__ __contains__") ++
  [ method "__getnewargs__" "($self, /)" none,
    method "index" "($self, value, start=0, stop=sys.maxsize, /)" (lines [
      "Return first index of value.",
      "",
      "Raises ValueError if the value is not present."]),
    method "count" "($self, value, /)" "Return number of occurrences of value.",
    kindMethod "__class_getitem__" none "See PEP 585",
    description]

def ofNothing : List Member :=
  [maker] ++
  operators "__repr__ __bool__" ++
  [description]

def ofRecord : List Member :=
  [maker] ++
  operators "__repr__" ++
  [absent "__hash__"] ++
  operators
    ("__getattribute__ __lt__ __le__ __eq__ __ne__ __gt__ __ge__ __iter__ __init__ " ++
      "__or__ __ror__ __ior__ __len__") ++
  [method "__getitem__" none "x.__getitem__(y) <==> x[y]"] ++
  operators "__setitem__ __delitem__" ++
  [ method "__contains__" "($self, key, /)"
      "True if the dictionary has the specified key, else False.",
    method "__sizeof__" none "D.__sizeof__() -> size of D in memory, in bytes",
    method "get" "($self, key, default=None, /)"
      "Return the value for key if key is in the dictionary, else default.",
    method "setdefault" "($self, key, default=None, /)" (lines [
      "Insert key with a value of default if key is not in the dictionary.",
      "",
      "Return the value for key if key is in the dictionary, else default."]),
    method "pop" "($self, key, default=<unrepresentable>, /)" (lines [
      "D.pop(k[,d]) -> v, remove specified key and return the corresponding value.",
      "",
      "If the key is not found, return the default if given; otherwise,",
      "raise a KeyError."]),
    method "popitem" "($self, /)" (lines [
      "Remove and return a (key, value) pair as a 2-tuple.",
      "",
      "Pairs are returned in LIFO (last-in, first-out) order.",
      "Raises KeyError if the dict is empty."]),
    method "keys" none "D.keys() -> a set-like object providing a view on D's keys",
    method "items" none "D.items() -> a set-like object providing a view on D's items",
    method "values" none "D.values() -> an object providing a view on D's values",
    method "update" none (lines [
      "D.update([E, ]**F) -> None.  Update D from dict/iterable E and F.",
      "If E is present and has a .keys() method, then does:  for k in E: D[k] = E[k]",
      "If E is present and lacks a .keys() method, then does:  for k, v in E: D[k] = v",
      "In either case, this is followed by: for k in F:  D[k] = F[k]"]),
    kindMethod "fromkeys" "($type, iterable, value=None, /)"
      "Create a new dictionary with keys from iterable and values set to value.",
    method "clear" none "D.clear() -> None.  Remove all items from D.",
    method "copy" none "D.copy() -> a shallow copy of D",
    method "__reversed__" "($self, /)" "Return a reverse iterator over the dict keys.",
    kindMethod "__class_getitem__" none "See PEP 585",
    description]

def ofTable : List Member :=
  [maker] ++
  operators
    ("__repr__ __str__ __getattribute__ __lt__ __le__ __eq__ __ne__ __gt__ __ge__ " ++
      "__iter__ __or__ __ror__ __ior__ __len__ __getitem__ __contains__") ++
  [ method "get" none "D.get(k[,d]) -> D[k] if k in D, else d.  d defaults to None.",
    method "keys" none "D.keys() -> a set-like object providing a view on D's keys",
    method "values" none "D.values() -> an object providing a view on D's values",
    method "items" none "D.items() -> a set-like object providing a view on D's items",
    method "copy" none "D.copy() -> a shallow copy of D",
    kindMethod "__class_getitem__" none "See PEP 585",
    method "__reversed__" none "D.__reversed__() -> reverse iterator",
    description,
    absent "__hash__"]

/-- The members of kinds with a place. -/
def ofApplied : List Member :=
  [maker] ++
  operators
    ("__repr__ __hash__ __call__ __getattribute__ __lt__ __le__ __eq__ __ne__ __gt__ " ++
      "__ge__ __iter__ __or__ __ror__ __getitem__") ++
  [ method "__mro_entries__" none none,
    method "__instancecheck__" none none,
    method "__subclasscheck__" none none,
    method "__reduce__" none none,
    method "__dir__" none none,
    stored "__origin__" none,
    stored "__args__" none,
    stored "__unpacked__" none,
    computed "__parameters__" "Type variables in the GenericAlias.",
    computed "__typing_unpacked_tuple_args__" none,
    description]

def ofShared : List Member :=
  [maker] ++
  operators "__repr__ __call__ __get__ __init__" ++
  [ stored "__func__" none,
    stored "__wrapped__" none,
    computed "__isabstractmethod__" none,
    computed "__dict__" none,
    description]

/-- The members of members that are methods or operators. -/
def ofMethod : List Member :=
  operators "__repr__ __call__ __getattribute__ __get__" ++
  [ method "__reduce__" none none,
    stored "__objclass__" none,
    stored "__name__" none,
    computed "__doc__" none,
    computed "__qualname__" none,
    computed "__text_signature__" none]

/-- The members of members of the kind itself. -/
def ofKindMethod : List Member :=
  operators "__repr__ __call__ __getattribute__ __get__" ++
  [ stored "__objclass__" none,
    stored "__name__" none,
    computed "__doc__" none,
    computed "__qualname__" none,
    computed "__text_signature__" none]

def ofComputed : List Member :=
  operators "__repr__ __getattribute__ __get__ __set__ __delete__" ++
  [ stored "__objclass__" none,
    stored "__name__" none,
    computed "__doc__" none,
    computed "__qualname__" none]

def ofStored : List Member :=
  operators "__repr__ __getattribute__ __get__ __set__ __delete__" ++
  [ method "__reduce__" none none,
    stored "__objclass__" none,
    stored "__name__" none,
    computed "__doc__" none,
    computed "__qualname__" none]

def ofBoundMethod : List Member :=
  operators
    ("__repr__ __hash__ __call__ __getattribute__ __lt__ __le__ __eq__ __ne__ __gt__ " ++
      "__ge__") ++
  [ method "__reduce__" none none,
    stored "__module__" none,
    computed "__doc__" none,
    computed "__name__" none,
    computed "__qualname__" none,
    computed "__self__" none,
    computed "__text_signature__" none]

def ofBoundOperator : List Member :=
  operators
    ("__repr__ __hash__ __call__ __getattribute__ __lt__ __le__ __eq__ __ne__ __gt__ " ++
      "__ge__") ++
  [ method "__reduce__" none none,
    stored "__self__" none,
    computed "__objclass__" none,
    computed "__name__" none,
    computed "__qualname__" none,
    computed "__doc__" none,
    computed "__text_signature__" none]

end Member

namespace Kind

def members : Kind → List Member
  | .text => Member.ofText
  | .thing => Member.ofThing
  | .kind => Member.ofKind
  | .row => Member.ofRow
  | .number => Member.ofNumber
  | .truth => Member.ofTruth
  | .nothing => Member.ofNothing
  | .record => Member.ofRecord
  | .table => Member.ofTable
  | .applied => Member.ofApplied
  | .shared => Member.ofShared
  | .method | .operator => Member.ofMethod
  | .kindMethod => Member.ofKindMethod
  | .computed => Member.ofComputed
  | .stored => Member.ofStored
  | .boundMethod => Member.ofBoundMethod
  | .boundOperator => Member.ofBoundOperator

/-- A kind's own member of a name. -/
def own? (k : Kind) (name : String) : Option Member := k.members.find? (·.name = name)

/-- The first kind of a line that has a member of a name, with the member. -/
def find? (k : Kind) (name : String) : Option (Kind × Member) :=
  k.line.findSome? fun owner => (owner.own? name).map fun m => (owner, m)

end Kind

end Workbench.Template
