import SyncFacade.TypeRef
import SyncFacade.Value

/-! Annotations of parameters and results, in the form in which they are seen once they are made: unions
and literals are flat and without repetitions, metadata stands on one level, and a callable has its
parameters and its result in one row. -/
namespace SyncFacade

/-- A class that an annotation names. Two declared classes differ even where their names agree. -/
structure NamedClass where
  name : String
  module : String
  declared : Option Nat := none
deriving DecidableEq

/-- How a generic class was applied: by itself, by itself as a callable, or through an alias of the typing
library. -/
inductive Application where
  | direct
  | signature
  | alias (name : String)
deriving DecidableEq

/-- Whether a class was applied through an alias. What was, is no longer equal to what was not. -/
def Application.isAlias : Application → Bool
  | .alias _ => true
  | _ => false

/-- A function or another thing that is no class, in the place of a class. The serial tells apart what has
one name. -/
structure NamedObject where
  name : String
  module : Option String := none
  isFunction : Bool := false
  serial : Nat := 0
deriving DecidableEq

/-- An annotation. `alias` is an alias of the typing library that is not applied, and `special` a special
form with its arguments, if it has any. `byOperator` notes whether a union was made by the operator alone.
Two variables of one name differ in their serials; those of the typing library have none but the zero. -/
inductive TypeHint where
  | null
  | nullType
  | text (s : String)
  | forward (s : String)
  | typeVariable (name : String) (serial : Nat)
  | parameterVariable (name : String) (serial : Nat)
  | cls (c : NamedClass)
  | named (o : NamedObject)
  | alias (name : String)
  | applied (form : Application) (origin : TypeHint) (arguments : List TypeHint)
  | special (name : String) (arguments : List TypeHint)
  | union (byOperator : Bool) (members : List TypeHint)
  | literal (values : List TypeHint)
  | annotated (base : TypeHint) (extras : List TypeHint)
  | ellipsis
  | list (items : List TypeHint)
  | value (v : Value)

namespace TypeHint

/-- A value in the place of an annotation. -/
def ofValue : Value → TypeHint
  | .null => .null
  | .str s => .text s
  | .ellipsis => .ellipsis
  | v => .value v

/-- Whether two equal annotations are of one sort as well. A literal keeps those that are not apart. -/
def sameSort : TypeHint → TypeHint → Bool
  | .value v, .value w => v.typeName = w.typeName
  | .union o _, .union o' _ => o = o'
  | .applied f _ _, .applied f' _ _ => f = f'
  | _, _ => true

mutual

/-- Whether two annotations are equal. The members of unions and literals have no order. -/
def same : TypeHint → TypeHint → Bool
  | .null, .null => true
  | .nullType, .nullType => true
  | .text s, .text s' => s = s'
  | .forward s, .forward s' => s = s'
  | .typeVariable n s, .typeVariable n' s' => n = n' && s = s'
  | .parameterVariable n s, .parameterVariable n' s' => n = n' && s = s'
  | .cls c, .cls c' => c = c'
  | .named o, .named o' => o = o'
  | .alias n, .alias n' => n = n'
  | .applied f o as, .applied f' o' as' => f.isAlias = f'.isAlias && same o o' && allSame as as'
  | .special n as, .special n' as' => n = n' && allSame as as'
  | .union _ ms, .union _ ms' => ms.length = ms'.length && allAmong ms ms'
  | .literal vs, .literal vs' => vs.length = vs'.length && allAmongSorts vs vs'
  | .annotated a es, .annotated a' es' => same a a' && allSame es es'
  | .ellipsis, .ellipsis => true
  | .list as, .list as' => allSame as as'
  | .value v, .value v' => v.equals v'
  | _, _ => false

def allSame : List TypeHint → List TypeHint → Bool
  | [], [] => true
  | a :: as, b :: bs => same a b && allSame as bs
  | _, _ => false

def allAmong : List TypeHint → List TypeHint → Bool
  | [], _ => true
  | a :: as, bs => bs.any (fun b => same a b) && allAmong as bs

def allAmongSorts : List TypeHint → List TypeHint → Bool
  | [], _ => true
  | a :: as, bs => bs.any (fun b => same a b && sameSort a b) && allAmongSorts as bs

end

def identical (a b : TypeHint) : Bool := a.same b && a.sameSort b

mutual

/-- Whether an annotation has a hash: it does unless it holds something that has none. -/
def hashable : TypeHint → Bool
  | .applied _ origin as => hashable origin && allHashable as
  | .special _ as => allHashable as
  | .union _ ms => allHashable ms
  | .literal vs => allHashable vs
  | .annotated base es => hashable base && allHashable es
  | .list _ => false
  | .value v => v.hashable
  | _ => true

def allHashable : List TypeHint → Bool
  | [] => true
  | a :: as => hashable a && allHashable as

end

/-- An annotation in the place of an argument that must be a type: a text refers forward. -/
def asType : TypeHint → TypeHint
  | .null => .nullType
  | .text s => .forward s
  | a => a

/-- The members of a union, or the annotation as the only one. -/
def members : TypeHint → List TypeHint
  | .union _ ms => ms
  | a => [a]

/-- The list with the first of equal elements only. -/
def distinct {α : Type} (equal : α → α → Bool) (as : List α) : List α :=
  as.foldl (fun kept a => if kept.any (equal · a) then kept else kept ++ [a]) []

/-- The union of some annotations. A single member stands for itself. -/
def unionOf (as : List TypeHint) (byOperator : Bool := false) : TypeHint :=
  match distinct same ((as.map asType).flatMap members) with
  | [a] => a
  | ms => .union byOperator ms

def specialClasses : List String := [
  "Any", "Annotated", "Generic", "Protocol", "SupportsAbs", "SupportsBytes", "SupportsComplex", "SupportsFloat",
  "SupportsIndex", "SupportsInt", "SupportsRound", "IO", "TextIO", "BinaryIO"]

/-- Whether the operator alone makes a union of an annotation and others like it. -/
def isOperand : TypeHint → Bool
  | .null => true
  | .nullType => true
  | .cls _ => true
  | .applied f _ _ => !f.isAlias
  | .special name [] => specialClasses.contains name
  | .union byOperator _ => byOperator
  | _ => false

/-- The values of a literal, or the annotation as the only one. -/
def literalValues : TypeHint → List TypeHint
  | .literal vs => vs
  | a => [a]

/-- One of several values. Repetitions are dropped, unless some value has no hash to find them by. -/
def literalOf (values : List TypeHint) : TypeHint :=
  let flat := values.flatMap literalValues
  .literal (if flat.all hashable then distinct identical flat else flat)

/-- An annotation with metadata, behind that which it has already. -/
def annotatedOf (base : TypeHint) (extras : List TypeHint) : TypeHint :=
  match base.asType with
  | .annotated base inner => .annotated base (inner ++ extras)
  | base => .annotated base extras

def callableClass : NamedClass := { name := "Callable", module := "collections.abc" }

def isCallable : TypeHint → Bool
  | .cls c => c = callableClass
  | _ => false

/-- Whether an argument stands for all parameters of a callable. -/
def isParameters : TypeHint → Bool
  | .ellipsis => true
  | .list _ => true
  | .value (.list _) => true
  | .value (.tuple _) => true
  | .parameterVariable _ _ => true
  | .special name (_ :: _) => name = "Concatenate"
  | _ => false

/-- Whether the arguments of a callable are all of its parameters in one and its result. Otherwise the
parameters stand one by one before the result. -/
def hasParametersInOne : List TypeHint → Bool
  | [p, _] => p.isParameters
  | _ => false

/-- Whether parameters are given in a list. -/
def isListed : TypeHint → Bool
  | .list _ => true
  | .value (.list _) => true
  | .value (.tuple _) => true
  | _ => false

/-- The parameters that a list of them holds, or what stands for all of them. -/
def listed : TypeHint → List TypeHint
  | .list ps => ps
  | .value (.list vs) => vs.map ofValue
  | .value (.tuple vs) => vs.map ofValue
  | p => [p]

/-- A callable with the given parameters, a list or what stands for one. -/
def callableOf (viaAlias : Bool) (parameters result : TypeHint) : TypeHint :=
  let row := parameters.listed ++ [result]
  if viaAlias then .applied (.alias "Callable") (.cls callableClass) (row.map asType)
  else .applied .signature (.cls callableClass) row

/-- The aliases of the typing library: name, and name and module of the class. -/
def aliases : List (String × String × String) := [
  ("List", "list", "builtins"), ("Dict", "dict", "builtins"), ("Set", "set", "builtins"),
  ("FrozenSet", "frozenset", "builtins"), ("Tuple", "tuple", "builtins"), ("Type", "type", "builtins"),
  ("Deque", "deque", "collections"), ("DefaultDict", "defaultdict", "collections"),
  ("OrderedDict", "OrderedDict", "collections"), ("Counter", "Counter", "collections"),
  ("ChainMap", "ChainMap", "collections"), ("Pattern", "Pattern", "re"), ("Match", "Match", "re"),
  ("ContextManager", "AbstractContextManager", "contextlib"),
  ("AsyncContextManager", "AbstractAsyncContextManager", "contextlib"),
  ("AsyncIterator", "AsyncIterator", "collections.abc"),
  ("AsyncIterable", "AsyncIterable", "collections.abc"),
  ("AsyncGenerator", "AsyncGenerator", "collections.abc"), ("Awaitable", "Awaitable", "collections.abc"),
  ("Coroutine", "Coroutine", "collections.abc"), ("Iterator", "Iterator", "collections.abc"),
  ("Iterable", "Iterable", "collections.abc"), ("Generator", "Generator", "collections.abc"),
  ("Sequence", "Sequence", "collections.abc"), ("Mapping", "Mapping", "collections.abc"),
  ("Hashable", "Hashable", "collections.abc"), ("Sized", "Sized", "collections.abc"),
  ("AbstractSet", "Set", "collections.abc"), ("ByteString", "ByteString", "collections.abc"),
  ("Collection", "Collection", "collections.abc"), ("Container", "Container", "collections.abc"),
  ("ItemsView", "ItemsView", "collections.abc"), ("KeysView", "KeysView", "collections.abc"),
  ("ValuesView", "ValuesView", "collections.abc"), ("MappingView", "MappingView", "collections.abc"),
  ("MutableMapping", "MutableMapping", "collections.abc"),
  ("MutableSequence", "MutableSequence", "collections.abc"),
  ("MutableSet", "MutableSet", "collections.abc"), ("Reversible", "Reversible", "collections.abc"),
  ("Callable", "Callable", "collections.abc")]

/-- The class that an alias stands for. -/
def aliasClass? (name : String) : Option NamedClass :=
  (aliases.lookup name).map fun (name, module) => { name, module }

/-- A name of the typing library by itself. -/
def typingName (name : String) : TypeHint :=
  if name = "Text" then .cls { name := "str", module := "builtins" }
  else if name = "AnyStr" then .typeVariable name 0
  else if (aliasClass? name).isSome then .alias name
  else .special name []

/-- The arguments that are given in brackets: a tuple by itself stands for its elements. -/
def spread : List TypeHint → List TypeHint
  | [.value (.tuple vs)] => vs.map ofValue
  | as => as

/-- An alias or a special form of the typing library, applied to arguments. -/
def appliedName (name : String) (arguments : List TypeHint) : TypeHint :=
  match aliasClass? name with
  | some c => .applied (.alias name) (.cls c) (arguments.map asType)
  | none => .special name (arguments.map asType)

end TypeHint
end SyncFacade
