/-! The ways in which describing classes and generating wrappers fails. -/
namespace SyncFacade

inductive GenerationError where
  /-- A method that does not return at once was adapted, but nothing provides the scope to run it. -/
  | missingScope (className methodName : String)
  | missingBody
  | emptyDocstring
  /-- Something else than a class was to be described; the text shows what. -/
  | notAClass (shown : String)
  /-- Classes were to be registered without a module to generate. -/
  | missingTarget
deriving DecidableEq

namespace GenerationError

def message : GenerationError → String
  | .missingScope c m =>
    c ++ "." ++ m ++ " is async and needs an execution scope provider, but none was configured. " ++
      "Pass scope_provider='package.module.attribute' to the Module that wraps this class."
  | .missingBody => "Unsupported expression: None"
  | .emptyDocstring => "list index out of range"
  | .notAClass shown => shown ++ " is not a class"
  | .missingTarget => "target_module is required"

end GenerationError
end SyncFacade
