import SyncFacade.Error
import SyncFacade.Log
import SyncFacade.OrderedMap
import SyncFacade.Scope

/-! Modules to generate. Several targets may name the same module; they share what is registered for
it, so that one of them stands for all. -/
namespace SyncFacade

/-- A module to generate, and the scope that its deferred and streaming calls run in. -/
structure Target where
  module : String
  scope : Option ScopeProvider := none
deriving DecidableEq

namespace Target

/-- A target for a module, with its scope at a dotted path. Empty names count as absent, and there is
no target without a module. -/
def make (module : Option String) (scopePath : Option String) : Except GenerationError Target :=
  match module.filter (· != "") with
  | some module => .ok { module, scope := (scopePath.filter (· != "")).map ScopeProvider.ofPath }
  | none => .error .missingTarget

/-- The warning about a target whose scope is not the one in use. -/
def scopeConflict (used : Target) : Record :=
  { level := .warning
    channel := .compiler
    message := "Modules targeting " ++ used.module ++ " have different scope providers, using " ++
      (used.scope.map ScopeProvider.shown).getD "None" }

/-- Take one more target into account: it stands for its module if it is the first one, or the first
one with a scope. A different scope than the one in use leaves a warning. -/
def choose (chosen : List Record × OrderedMap String Target) (t : Target) :
    List Record × OrderedMap String Target :=
  let (records, byModule) := chosen
  match byModule.find? t.module with
  | none => (records, byModule.put t.module t)
  | some used =>
    if used.scope = none ∧ t.scope ≠ none then (records, byModule.put t.module t)
    else if t.scope ≠ none ∧ t.scope ≠ used.scope then (records ++ [scopeConflict used], byModule)
    else (records, byModule)

/-- One target for each module, in the order in which the modules come first. -/
def onePerModule (ts : List Target) : List Record × List Target :=
  let (records, byModule) := ts.foldl choose ([], {})
  (records, byModule.values)

end Target
end SyncFacade
