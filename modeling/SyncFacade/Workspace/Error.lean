import SyncFacade.Error
import SyncFacade.Text.Quoted

/-! The ways in which importing modules fails. -/
namespace SyncFacade

inductive ImportFailure where
  /-- There is no module of this name. The parent is given if it is there and is no package. -/
  | noModule (name : String) (parent : Option String)
  | noName (name module : String)
  | emptyName
  /-- A module was asked for by a name that starts from a package, where there is none. -/
  | relativeName (name : String)
  /-- A module was asked for by something else than a name. -/
  | unnamed
  /-- A name stands for nothing, or for nothing of the kind that is needed. -/
  | undefined (name : String)
  /-- A module raised an error of its own. -/
  | raised (kind message : String)
  /-- A module could not be used to register classes. -/
  | registration (e : GenerationError)
  /-- Imports nest deeper than there are modules. -/
  | tooDeep
deriving DecidableEq

namespace ImportFailure

def message : ImportFailure → String
  | .noModule n none => "No module named " ++ Text.quote n
  | .noModule n (some p) => "No module named " ++ Text.quote n ++ "; " ++ Text.quote p ++ " is not a package"
  | .noName n m => "cannot import name " ++ Text.quote n ++ " from " ++ Text.quote m ++ " (unknown location)"
  | .emptyName => "Empty module name"
  | .relativeName n =>
    "the 'package' argument is required to perform a relative import for " ++ Text.quote n
  | .unnamed => "'list' object has no attribute 'startswith'"
  | .undefined n => "name " ++ Text.quote n ++ " is not defined"
  | .raised _ m => m
  | .registration e => e.message
  | .tooDeep => "maximum recursion depth exceeded"

def kind : ImportFailure → String
  | .noModule _ _ => "ModuleNotFoundError"
  | .noName _ _ => "ImportError"
  | .emptyName => "ValueError"
  | .relativeName _ => "TypeError"
  | .unnamed => "AttributeError"
  | .undefined _ => "NameError"
  | .raised k _ => k
  | .registration _ => "ValueError"
  | .tooDeep => "RecursionError"

/-- Whether a failure says that something could not be imported. -/
def isImportError (e : ImportFailure) : Bool := e.kind = "ImportError" || e.kind = "ModuleNotFoundError"

/-- A failure as the failure to import a module that was asked for. -/
def ofModule (name : String) (e : ImportFailure) : ImportFailure :=
  if e.isImportError then .raised "ImportError" ("Could not import module '" ++ name ++ "': " ++ e.message)
  else e

end ImportFailure
end SyncFacade
