/-! The classes that are there before any declaration. A few of them make what extends them abstract, or
a protocol. -/
namespace SyncFacade

/-- The classes that declarations extend without declaring them. -/
inductive BaseClass where
  | object
  | protocol
  | protocolExtension
  | abstract
  | generic
  | sized
  | hashable
  | iterable
  | iterator
  | asyncIterable
  | asyncIterator
deriving DecidableEq

namespace BaseClass

def name : BaseClass → String
  | .object => "object"
  | .protocol => "Protocol"
  | .protocolExtension => "Protocol"
  | .abstract => "ABC"
  | .generic => "Generic"
  | .sized => "Sized"
  | .hashable => "Hashable"
  | .iterable => "Iterable"
  | .iterator => "Iterator"
  | .asyncIterable => "AsyncIterable"
  | .asyncIterator => "AsyncIterator"

def module : BaseClass → String
  | .object => "builtins"
  | .protocol => "typing"
  | .protocolExtension => "typing_extensions"
  | .abstract => "abc"
  | .generic => "typing"
  | _ => "collections.abc"

def lineage : BaseClass → List BaseClass
  | .object => [.object]
  | .protocol => [.protocol, .generic, .object]
  | .protocolExtension => [.protocolExtension, .generic, .object]
  | .iterator => [.iterator, .iterable, .object]
  | .asyncIterator => [.asyncIterator, .asyncIterable, .object]
  | b => [b, .object]

/-- Whether a class only marks those that extend it as a protocol or as abstract. -/
def isMarker : BaseClass → Bool
  | .protocol => true
  | .protocolExtension => true
  | .abstract => true
  | _ => false

def protocolDoc : String :=
"Base class for protocol classes.

Protocol classes are defined as::

    class Proto(Protocol):
        def meth(self) -> int:
            ...

Such classes are primarily used with static type checkers that recognize
structural subtyping (static duck-typing), for example::

    class C:
        def meth(self) -> int:
            return 0

    def func(x: Proto) -> int:
        return x.meth()

    func(C())  # Passes static type check

See PEP 544 for details. Protocol classes decorated with
@typing.runtime_checkable act as simple-minded runtime protocols that check
only the presence of given attributes, ignoring their type signatures.
Protocol classes can be generic, they are defined as::

    class GenProto(Protocol[T]):
        def meth(self) -> T:
            ..."

def genericDoc : String :=
"Abstract base class for generic types.

A generic type is typically declared by inheriting from
this class parameterized with one or more type variables.
For example, a generic mapping type might be defined as::

  class Mapping(Generic[KT, VT]):
      def __getitem__(self, key: KT) -> VT:
          ...
      # Etc.

This class can then be used as follows::

  def lookup_name(mapping: Mapping[KT, VT], key: KT, default: VT) -> VT:
      try:
          return mapping[key]
      except KeyError:
          return default"

def objectDoc : String :=
"The base class of the class hierarchy.

When called, it accepts no arguments and returns a new featureless
instance that has no instance attributes and cannot be given any.
"

def doc : BaseClass → Option String
  | .object => some objectDoc
  | .protocol => some protocolDoc
  | .protocolExtension => some protocolDoc
  | .generic => some genericDoc
  | .abstract =>
    some "Helper class that provides a standard way to create an ABC using\n    inheritance.\n    "
  | _ => none

end BaseClass

end SyncFacade
