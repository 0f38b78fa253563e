import SyncFacade.TypeHint.Shown

/-! The references that annotations are recorded as. An annotation reads differently on its own and as
an argument of another one: there a text is a literal string, and a list is the parameters of a
callable. -/
namespace SyncFacade

inductive Position where
  | whole
  | argument
deriving DecidableEq

/-- The name that a value on its own is recorded under: a text is taken as a type. -/
def Value.wholeName : Value → String
  | .str s => s
  | v => v.text

/-- The name that a value as an argument is recorded under. -/
def Value.argumentName : Value → String
  | .list vs => bracketed (vs.map Value.wholeName)
  | .tuple vs => bracketed (vs.map Value.wholeName)
  | .ellipsis => "..."
  | v => v.text

/-- The reference for a class. Classes that are known everywhere need no module. -/
def NamedClass.reference (c : NamedClass) : TypeRef :=
  { name := c.name, module := if c.module = "builtins" then none else some c.module }

namespace TypeHint

def specialReference (name : String) (arguments : List TypeRef) : TypeRef :=
  { name, module := some typingModule, arguments }

/-- The reference for an alias that is not applied: that for its class. -/
def aliasReference (name : String) : TypeRef :=
  ((aliasClass? name).map NamedClass.reference).getD (specialReference name [])

mutual

def referenceAt (position : Position) : TypeHint → TypeRef
  | .null => { name := "None" }
  | .nullType => { name := "None" }
  | .text s => { name := if position = .argument then Text.quote s else s }
  | .forward s => { name := s }
  | .typeVariable n _ => { name := n }
  | .parameterVariable n _ => { name := n }
  | .cls c => c.reference
  | .named o => { name := o.name, module := o.module.filter (· ≠ "builtins") }
  | .alias n => aliasReference n
  | .applied form .null as => { name := shownAt .alone (.applied form .null as) }
  | .applied _ origin as =>
    (referenceAt .whole origin).applied <|
      if origin.isCallable && !hasParametersInOne as then
        { name := bracketed (wholeNames as).dropLast } :: (argumentReferences as).getLast?.toList
      else argumentReferences as
  | .special n as => specialReference n (argumentReferences as)
  | .union _ ms => specialReference "Union" (argumentReferences ms)
  | .literal vs => specialReference "Literal" (argumentReferences vs)
  | .annotated base es => specialReference "Annotated" (referenceAt .argument base :: argumentReferences es)
  | .ellipsis => { name := if position = .argument then "..." else "Ellipsis" }
  | .list as => { name := bracketed (if position = .argument then wholeNames as else allShownAt .alone as) }
  | .value v => { name := if position = .argument then v.argumentName else v.wholeName }

def argumentReferences : List TypeHint → List TypeRef
  | [] => []
  | a :: as => referenceAt .argument a :: argumentReferences as

/-- The names in the parameter list of a callable. The arguments of each parameter are left out. -/
def wholeNames : List TypeHint → List String
  | [] => []
  | a :: as => (referenceAt .whole a).qualifiedName :: wholeNames as

end

def reference (a : TypeHint) : TypeRef := a.referenceAt .whole

def argumentReference (a : TypeHint) : TypeRef := a.referenceAt .argument

/-- The classes of what is iterated over asynchronously. -/
def asyncStreams : List NamedClass := [
  { name := "AsyncIterator", module := "collections.abc" },
  { name := "AsyncIterable", module := "collections.abc" },
  { name := "AsyncGenerator", module := "collections.abc" }]

/-- Whether an annotation is one of these classes, alone or applied. -/
def isAsyncStream : TypeHint → Bool
  | .cls c => asyncStreams.contains c
  | .alias n => (aliasClass? n).any asyncStreams.contains
  | .applied _ (.cls c) _ => asyncStreams.contains c
  | _ => false

end TypeHint
end SyncFacade
