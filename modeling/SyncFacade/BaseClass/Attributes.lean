import SyncFacade.BaseClass

/-! What is found under a name in the classes that are always there, as far as it is documented. A class has
the attributes of its lineage, and behind them those of the kind of class that it is. -/
namespace SyncFacade

namespace BaseClass

def objectDocs : List (String × String) := [
  ("__new__", "Create and return a new object.  See help(type) for accurate signature."),
  ("__init__", "Initialize self.  See help(type(self)) for accurate signature."),
  ("__repr__", "Return repr(self)."),
  ("__str__", "Return str(self)."),
  ("__hash__", "Return hash(self)."),
  ("__format__", "Default object formatter."),
  ("__sizeof__", "Size of object in memory, in bytes."),
  ("__dir__", "Default dir() implementation."),
  ("__getattribute__", "Return getattr(self, name)."),
  ("__setattr__", "Implement setattr(self, name, value)."),
  ("__delattr__", "Implement delattr(self, name)."),
  ("__lt__", "Return self<value."),
  ("__le__", "Return self<=value."),
  ("__eq__", "Return self==value."),
  ("__ne__", "Return self!=value."),
  ("__gt__", "Return self>value."),
  ("__ge__", "Return self>=value."),
  ("__reduce__", "Helper for pickle."),
  ("__reduce_ex__", "Helper for pickle."),
  ("__getstate__", "Helper for pickle."),
  ("__subclasshook__",
    "Abstract classes can override this to customize issubclass().\n\n" ++
    "This is invoked early on by abc.ABCMeta.__subclasscheck__().\n" ++
    "It should return True, False or NotImplemented.  If it returns\n" ++
    "NotImplemented, the normal algorithm is used.  Otherwise, it\n" ++
    "overrides the normal algorithm (and the outcome is cached).\n")]

/-- What a class gives those who ask whether another one extends it. -/
def subclassHook : String := "__subclasshook__"

/-- The attributes of a class itself that matter, each with its documentation if it has any. -/
def attributes : BaseClass → List (String × Option String)
  | .object => objectDocs.map fun (name, doc) => (name, some doc)
  | .sized => [("__len__", none), (subclassHook, none)]
  | .hashable => [("__hash__", none), (subclassHook, none)]
  | .iterable => [("__iter__", none), (subclassHook, none)]
  | .iterator => [
    ("__next__", some "Return the next item from the iterator. When exhausted, raise StopIteration"),
    ("__iter__", none), (subclassHook, none)]
  | .asyncIterable => [("__aiter__", none), (subclassHook, none)]
  | .asyncIterator => [
    ("__anext__", some "Return the next item or raise StopAsyncIteration when exhausted."),
    ("__aiter__", none), (subclassHook, none)]
  | _ => []

def protocolMark : String := "_is_protocol"

/-- The attribute that marks protocols whose instances are known without extending them. -/
def runtimeMark : String := "_is_runtime_protocol"

def marks : BaseClass → List (String × Bool)
  | .protocol => [(protocolMark, true), (runtimeMark, false)]
  | .protocolExtension => [(protocolMark, true), (runtimeMark, false)]
  | .generic => [(protocolMark, false)]
  | _ => []

end BaseClass

/-- The kinds that classes are of, each one a case of those before it. -/
inductive ClassKind where
  | plain
  | abstract
  | protocol
  | protocolExtension
deriving DecidableEq

namespace ClassKind

def rank : ClassKind → Nat
  | .plain => 0
  | .abstract => 1
  | .protocol => 2
  | .protocolExtension => 3

/-- The kind of a class whose bases are of two kinds. -/
def join (a b : ClassKind) : ClassKind := if a.rank ≤ b.rank then b else a

def plainDocs : List (String × Option String) := [
  ("mro", some "Return a type's method resolution order."),
  ("__call__", some "Call self as a function."),
  ("__or__", some "Return self|value."),
  ("__ror__", some "Return value|self."),
  ("__subclasses__", some "Return a list of immediate subclasses."),
  ("__prepare__", some "__prepare__() -> dict\nused to create the namespace for the class statement"),
  ("__instancecheck__", some "Check if an object is an instance."),
  ("__subclasscheck__", some "Check if a class is a subclass.")]

def abstractDocs : List (String × Option String) := [
  ("register", some ("Register a virtual subclass of an ABC.\n\n" ++
    "            Returns the subclass, to allow usage as a class decorator.\n            ")),
  ("__instancecheck__", some "Override for isinstance(instance, cls)."),
  ("__subclasscheck__", some "Override for issubclass(subclass, cls)."),
  ("_dump_registry", some "Debug helper to print the ABC registry."),
  ("_abc_registry_clear", some "Clear the registry (for debugging or testing)."),
  ("_abc_caches_clear", some "Clear the caches (for debugging or testing).")]

/-- The attributes of a kind that matter, the nearest first, each with its documentation if it has any. -/
def attributes : ClassKind → List (String × Option String)
  | .plain => plainDocs
  | .abstract => abstractDocs ++ plainDocs
  | .protocol => ("__instancecheck__", none) :: (abstractDocs ++ plainDocs)
  | .protocolExtension =>
    ("__instancecheck__", none) :: ("__subclasscheck__", none) :: (abstractDocs ++ plainDocs)

/-- The documentation of what the kind of a class provides under a name. -/
def doc (kind : ClassKind) (name : String) : Option String := (kind.attributes.lookup name).join

end ClassKind

def BaseClass.kind : BaseClass → ClassKind
  | .object => .plain
  | .generic => .plain
  | .protocol => .protocol
  | .protocolExtension => .protocolExtension
  | _ => .abstract

/-- The names under which a class shows something about itself, whatever stands there in its body. -/
def reservedNames : List String := [
  "__name__", "__qualname__", "__module__", "__class__", "__dict__", "__bases__", "__base__", "__mro__",
  "__text_signature__", "__flags__", "__basicsize__", "__itemsize__", "__dictoffset__", "__weakrefoffset__"]

end SyncFacade
