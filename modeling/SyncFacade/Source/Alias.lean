import SyncFacade.Generation

/-! The names under which the bodies of a generated module refer to what it imports. Bodies are the
only place where these names are evaluated, and a parameter of the same name would hide them there, so
each is an alias that no parameter of the module has. -/
namespace SyncFacade

def underscored (name : String) (count : Nat) : String :=
  String.ofList (List.replicate count '_') ++ name

/-- The name behind the fewest underscores with which it is not taken. As many as there are taken names
are always enough. -/
def freeName (name : String) (taken : List String) : String :=
  (((List.range (taken.length + 1)).map (underscored name)).find? fun n => !taken.contains n).getD name

/-- The aliases of a generated module. Without one, the scope goes by the name that a body has. -/
structure Aliases where
  deferredWrapper : String
  streamWrapper : String
  scope : Option String := none
deriving DecidableEq

namespace Aliases

/-- The names of all parameters of the methods and constructors of some wrappers. -/
def parameterNames (wrappers : List Wrapper) : List String :=
  wrappers.flatMap fun w =>
    w.methods.flatMap (·.parameters.map Parameter.name) ++ w.constructor.parameters.map Parameter.name

/-- The aliases for a module with the given wrappers. The scope gets one if it is imported. -/
def choose (wrappers : List Wrapper) (scope : Option ScopeProvider := none)
    (target : Option String := none) : Aliases :=
  let taken := parameterNames wrappers
  let fresh (name : String) := freeName ("_" ++ name) taken
  { deferredWrapper := fresh SyncFacade.deferredWrapper.name
    streamWrapper := fresh SyncFacade.streamWrapper.name
    scope := (scope.filter fun p => (p.foreignModule target).isSome).map fun p => fresh p.name }

end Aliases
end SyncFacade
