import SyncFacade.Class
import SyncFacade.Error
import SyncFacade.Log
import SyncFacade.OrderedMap
import SyncFacade.Scope

/-! From the description of a class to that of its wrapper. A method that is called directly is passed
on as it is; one that is awaited returns a wrapper of its eventual result, and one that returns an
asynchronous iterator a wrapper of the stream. No method of a wrapper suspends. -/
namespace SyncFacade

def delegateName : String := "wrapped"

def runtimeModule : String := "suspendwrap.runtime"

/-- The eventual result of a call. -/
def deferredWrapper : TypeRef := { name := "DeferredWrapper", module := some runtimeModule }

/-- The items of an asynchronous iterator. -/
def streamWrapper : TypeRef := { name := "StreamWrapper", module := some runtimeModule }

/-- The names of asynchronous iterator types, whose first argument is the type of the items. -/
def asyncIteratorNames : List String := ["AsyncIterator", "AsyncIterable", "AsyncGenerator"]

/-- The type of the items of a stream, where the result type shows it. -/
def streamElement (result : Option TypeRef) : Option TypeRef :=
  result.bind fun t => if asyncIteratorNames.contains t.name then t.arguments.head? else none

namespace Method

def exposedResult (m : Method) : Option TypeRef :=
  match m.convention with
  | .direct => m.result
  | .deferred => some (deferredWrapper.applied m.result.toList)
  | .streaming => some (streamWrapper.applied (streamElement m.result).toList)

/-- The call that passes a method's own parameters on to the wrapped instance. -/
def delegation (m : Method) (delegate : String) : Call :=
  { receiver := delegate, method := m.name, arguments := m.parameters }

def delegatingBody (m : Method) (scope : Option String) (delegate : String := delegateName) : Body :=
  match m.convention with
  | .direct => .direct (m.delegation delegate)
  | .deferred => .deferred scope (m.delegation delegate)
  | .streaming => .stream scope (m.delegation delegate)

/-- The signature of a method's wrapper, which never suspends. It has no body yet. -/
def exposed (m : Method) : Method :=
  { m with result := m.exposedResult, convention := .direct, suspends := false, body := none }

/-- Two methods have the same signature when names and parameters are equal, defaults aside. The
result type does not matter, but the names of the parameters do. -/
def sameSignature (m n : Method) : Bool :=
  m.name = n.name && m.parameters.map Parameter.bare = n.parameters.map Parameter.bare

/-- A wrapper's method overrides what the interface made from the wrapped class declares. -/
def implements (m : Method) (interface : Option InterfaceBinding) : Bool :=
  interface.any fun i => i.methods.any m.sameSignature

/-- The method of a wrapper: its signature, a mark where it overrides, and the delegating body. -/
def adapted (m : Method) (scope : Option String) (interface : Option InterfaceBinding)
    (delegate : String) : Method :=
  { m.exposed with
    overrides := m.overrides || m.exposed.implements interface
    body := some (m.delegatingBody scope delegate) }

/-- The method of a wrapper, if there is a scope to run it in. A method that is called directly needs
none. -/
def adapt (m : Method) (scope : Option ScopeProvider) (interface : Option InterfaceBinding)
    (className : String) (delegate : String := delegateName) : Logged GenerationError Method := do
  if m.convention ≠ .direct ∧ scope = none then
    Logged.fail (.missingScope className m.name)
  Logged.log .debug .adapter
    ("Adapted " ++ className ++ "." ++ m.name ++ " (" ++ m.convention.word ++ ")")
  return m.adapted (scope.map ScopeProvider.name) interface delegate

def declared (m : Method) : Method := { m.exposed with overrides := false }

end Method

namespace ClassInfo

/-- The interface that shows a class's methods with the signatures of its wrapper. -/
def deriveInterface (c : ClassInfo) (type : TypeRef) : InterfaceBinding :=
  { type, methods := c.methods.map Method.declared }

end ClassInfo

/-- The interface of a binding, ready to be written out. -/
def InterfaceBinding.interface (b : InterfaceBinding) (doc : Option String := none) : Interface :=
  { name := b.type.name, module := b.type.module, methods := b.methods, doc }

/-- The interface that stands in for a wrapped one, under the given name. -/
def ClassInfo.replacement (c : ClassInfo) (name : String) (target : Option String) : Interface :=
  (c.deriveInterface { name, module := target }).interface c.doc

/-- The supertypes of a wrapper: those of the class in their order, each one that is substituted
replaced in its place, and then the interface made from the class itself. -/
def wrapperSupertypes (declared : List TypeRef) (substitution : Option Substitution)
    (interface : Option InterfaceBinding) : List TypeRef :=
  (declared.map fun t => match substitution with
    | some s => if t = s.replaced then s.generated else t
    | none => t) ++ (interface.map InterfaceBinding.type).toList

structure Context where
  wrapperName : String
  module : Option String := none
  scope : Option ScopeProvider := none
  interface : Option InterfaceBinding := none
  substitution : Option Substitution := none

/-- The interfaces of a class that have a generated replacement, in declared order. -/
def ClassInfo.replaceable (c : ClassInfo) (replacements : OrderedMap TypeRef TypeRef) : List TypeRef :=
  c.supertypes.filter replacements.contains

/-- The substitution for a class: the first of its interfaces that has a replacement. A warning names
all candidates where there are several. -/
def ClassInfo.chooseSubstitution (c : ClassInfo) (replacements : OrderedMap TypeRef TypeRef) :
    Logged GenerationError (Option Substitution) := do
  let candidates := c.replaceable replacements
  match candidates with
  | [] => return none
  | replaced :: others =>
    if others ≠ [] then
      Logged.log .warning .compiler
        (c.name ++ " implements several wrapped interfaces (" ++
          ", ".intercalate (candidates.map TypeRef.qualifiedName) ++ "), only " ++
          replaced.qualifiedName ++ " is replaced in its wrapper")
    return (replacements.find? replaced).map fun generated => { replaced, generated }

def wrapperDoc (wrapped : TypeRef) : String :=
  "Wrapper for " ++ wrapped.qualifiedName ++ " with non-suspending methods"

/-- The wrapper of a class: it holds an instance in a private field, set by the constructor, and has
every method of the class. -/
def ClassInfo.compile (c : ClassInfo) (context : Context) : Logged GenerationError Wrapper := do
  Logged.log .debug .compiler
    ("Compiling wrapper " ++ context.wrapperName ++ " for " ++ c.type.qualifiedName)
  let methods ← c.methods.mapM fun m => m.adapt context.scope context.interface c.name
  return {
    name := context.wrapperName
    module := context.module
    supertypes := wrapperSupertypes c.supertypes context.substitution context.interface
    methods
    delegate := { name := delegateName, type := c.type }
    constructor :=
      { parameters := [{ name := delegateName, type := some c.type }], assigns := [delegateName] }
    doc := some (wrapperDoc c.type) }

end SyncFacade
