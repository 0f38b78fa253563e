import SyncFacade.Registry
import SyncFacade.Source.Module
import SyncFacade.Target

/-! Generated modules: what is registered for a target, described, turned into interfaces and wrappers
and written out. -/
namespace SyncFacade

/-- How registered classes are described, and the type that each of them is. -/
structure Catalogue (κ : Type) where
  describe : κ → Logged GenerationError ClassInfo
  type : κ → TypeRef

/-- A class to wrap: the name of the wrapper, the class, and the name of an interface to make. -/
structure Wrapping (κ : Type) where
  name : String
  key : κ
  interface : Option String := none

namespace Target

variable {κ : Type} [DecidableEq κ]

def interfaceDoc (wrapperName : String) : String := "Interface of " ++ wrapperName

def compileInterface (t : Target) (describe : κ → Logged GenerationError ClassInfo) (name : String)
    (key : κ) : Logged GenerationError Interface := do
  return (← describe key).replacement name (some t.module)

/-- The wrapper of a registered class, with the interface made for it if one is asked for. -/
def compileClass (t : Target) (describe : κ → Logged GenerationError ClassInfo)
    (replacements : OrderedMap TypeRef TypeRef) (w : Wrapping κ) :
    Logged GenerationError (Option Interface × Wrapper) := do
  let c ← describe w.key
  let binding := w.interface.map fun name => c.deriveInterface { name, module := some t.module }
  let substitution ← c.chooseSubstitution replacements
  let wrapper ← c.compile {
    wrapperName := w.name
    module := some t.module
    scope := t.scope
    interface := binding
    substitution }
  return (binding.map (·.interface (some (interfaceDoc w.name))), wrapper)

/-- The text of a target's module, for the given interfaces and classes: the replacements of the
interfaces come first, then the interfaces made from classes, then the wrappers. Of entries of one name
the last one counts, in the place of the first. -/
def compileItems (t : Target) (describe : κ → Logged GenerationError ClassInfo)
    (interfaces : List (String × κ)) (classes : List (Wrapping κ))
    (replacements : OrderedMap TypeRef TypeRef) : Logged GenerationError String := do
  let replaced ← (OrderedMap.ofList interfaces).entries.mapM fun (name, key) =>
    t.compileInterface describe name key
  let compiled ← (OrderedMap.ofList (classes.map fun w => (w.name, w))).values.mapM
    (t.compileClass describe replacements)
  .ofExcept <| moduleText (some t.module) (replaced ++ compiled.filterMap (·.1)) (compiled.map (·.2)) t.scope

end Target

namespace Registry

variable {κ : Type} [DecidableEq κ]

/-- The interfaces registered for some targets, each with the type that replaces it. -/
def replacements (r : Registry κ) (type : κ → TypeRef) (targets : List Target) :
    OrderedMap TypeRef TypeRef :=
  .ofList <| targets.flatMap fun t => (r.interfacesOf t.module).entries.map fun (name, key) =>
    (type key, { name, module := some t.module })

/-- The text of a target's module. The replacements of interfaces are those of the target alone, if
none are given. -/
def compile (r : Registry κ) (catalogue : Catalogue κ) (t : Target)
    (replacements : Option (OrderedMap TypeRef TypeRef) := none) : Logged GenerationError String :=
  t.compileItems catalogue.describe (r.interfacesOf t.module).entries
    ((r.classesOf t.module).entries.map fun (name, key, interface) => { name, key, interface })
    (replacements.getD (r.replacements catalogue.type [t]))

/-- The texts of the modules of some targets, one for each module. Interfaces are replaced across all
of them. -/
def compileAll (r : Registry κ) (catalogue : Catalogue κ) (targets : List Target) :
    Logged GenerationError (OrderedMap String String) := do
  let (records, targets) := Target.onePerModule targets
  Logged.tell records
  let replacements := r.replacements catalogue.type targets
  let texts ← targets.mapM fun t => do
    Logged.log .debug .compiler ("Compiling module " ++ t.module)
    return (t.module, ← r.compile catalogue t replacements)
  return .ofList texts

end Registry
end SyncFacade
