import SyncFacade.Text.Quoted

/-! The named value that supplies the execution scope of deferred and streaming calls. -/
namespace SyncFacade

/-- The attribute that holds an execution scope, and the module that defines it. -/
structure ScopeProvider where
  name : String
  module : Option String := none
deriving DecidableEq

namespace ScopeProvider

/-- What stands before and after the last dot of a path. -/
def splitAtLastDot : List Char → Option (List Char × List Char)
  | [] => none
  | c :: cs =>
    match splitAtLastDot cs with
    | some (before, after) => some (c :: before, after)
    | none => if c = '.' then some ([], cs) else none

/-- The provider at a dotted path: the name follows the last dot, and a path without a dot has no
module. -/
def ofPath (path : String) : ScopeProvider :=
  match splitAtLastDot path.toList with
  | some (module, name) => { name := String.ofList name, module := some (String.ofList module) }
  | none => { name := path }

/-- The module to import the provider from: one that is named and is not the target itself. -/
def foreignModule (p : ScopeProvider) (target : Option String) : Option String :=
  p.module.filter fun m => m != "" && some m != target

def shown (p : ScopeProvider) : String :=
  "ScopeProvider(name=" ++ Text.quote p.name ++ ", module=" ++
    (match p.module with | some m => Text.quote m | none => "None") ++ ")"

end ScopeProvider
end SyncFacade
