import SyncFacade.Source.Body

/-! The text of a generated module: its imports and aliases, then the interfaces, so that wrappers can
name them as bases, then the wrappers. -/
namespace SyncFacade

/-- The base of every generated interface, and the module of the mark of an overriding method. -/
def protocolBase : String := "typing.Protocol"
def overrideModule : String := "typing_extensions"

/-- The lines of the documentation of a class. An empty one sets them off from what follows. -/
def classDocLines (doc : Option String) : Except GenerationError (List String) :=
  match doc.filter (· != "") with
  | some doc => (Docstring.literal indent doc).map (· ++ [""])
  | none => .ok []

namespace Interface

/-- The lines of an interface: a class of signatures without bodies. -/
def lines (i : Interface) (target : Option String) : Except GenerationError (List String) := do
  let bases := i.supertypes.map (·.render target) ++ [protocolBase]
  let doc ← classDocLines i.doc
  return ["class " ++ i.name ++ "(" ++ ", ".intercalate bases ++ "):"] ++ doc ++
    (if i.methods.isEmpty && (i.doc.getD "").isEmpty then [indent ++ "pass"] else []) ++
    i.methods.map fun m => indent ++ m.header target ++ " ..."

end Interface

namespace Constructor

/-- The lines of a constructor. One that assigns nothing has an empty body. -/
def lines (c : Constructor) (field : DelegateField) (target : Option String) : List String :=
  [indent ++ "def __init__(self, " ++ Parameter.renderAll target c.parameters ++ "):"] ++
    if c.assigns.isEmpty then [indent2 ++ "pass"]
    else c.assigns.map fun name => indent2 ++ "self." ++ field.attribute name ++ " = " ++ name

end Constructor

namespace Wrapper

def header (w : Wrapper) (target : Option String) : String :=
  let bases := ", ".intercalate (w.supertypes.map (·.render target))
  "class " ++ w.name ++ (if bases = "" then "" else "(" ++ bases ++ ")") ++ ":"

/-- The lines of a wrapper: a class that delegates to the instance it holds. -/
def lines (w : Wrapper) (target : Option String) (aliases : Aliases) :
    Except GenerationError (List String) := do
  let doc ← classDocLines w.doc
  let methods ← w.methods.mapM fun (m : Method) => m.lines w.delegate target aliases
  return [w.header target] ++ doc ++ w.constructor.lines w.delegate target ++ methods.flatMap fun ls => "" :: ls

end Wrapper

def Method.modules (m : Method) : List String :=
  m.parameters.flatMap (fun p => (p.type.map TypeRef.modules).getD []) ++
    (m.result.map TypeRef.modules).getD []

def Interface.modules (i : Interface) : List String :=
  i.supertypes.flatMap TypeRef.modules ++ i.methods.flatMap Method.modules

def Body.modules : Body → List String
  | .direct _ => []
  | .deferred _ _ => deferredWrapper.modules
  | .stream _ _ => streamWrapper.modules

def Method.wrapperModules (m : Method) : List String :=
  m.modules ++ (if m.overrides then [overrideModule] else []) ++ (m.body.map Body.modules).getD []

def Wrapper.modules (w : Wrapper) : List String :=
  w.supertypes.flatMap TypeRef.modules ++ w.delegate.type.modules ++
    w.methods.flatMap Method.wrapperModules

/-- Each text once, in the order of code points. -/
def sortedDistinct (ss : List String) : List String := ss.eraseDups.mergeSort fun a b => decide (a ≤ b)

/-- The modules that a generated module imports: all that it mentions but itself. -/
def importedModules (target : Option String) (interfaces : List Interface) (wrappers : List Wrapper) :
    List String :=
  sortedDistinct <|
    ("typing" :: interfaces.flatMap Interface.modules ++ wrappers.flatMap Wrapper.modules).filter
      fun m => some m != target

def aliasImport (module name localName : String) : String :=
  "from " ++ module ++ " import " ++ name ++ " as " ++ localName

def Body.isDeferred : Body → Bool
  | .deferred _ _ => true
  | _ => false

def Body.isStream : Body → Bool
  | .stream _ _ => true
  | _ => false

/-- The imports of the aliases that a module uses: those of the wrappers of results and streams where a
body needs one, and that of the scope where it is imported. -/
def aliasImports (aliases : Aliases) (bodies : List Body) (target : Option String)
    (scope : Option ScopeProvider) : List String :=
  (if bodies.any Body.isDeferred
    then [aliasImport runtimeModule deferredWrapper.name aliases.deferredWrapper] else []) ++
  (if bodies.any Body.isStream
    then [aliasImport runtimeModule streamWrapper.name aliases.streamWrapper] else []) ++
  match scope, scope.bind (·.foreignModule target), aliases.scope with
  | some p, some module, some localName => [aliasImport module p.name localName]
  | _, _, _ => []

def prologue : List String :=
  ["# Generated by suspendwrap - do not edit", "from __future__ import annotations", ""]

/-- The lines of the imports; without any, a line is left empty for them. -/
def importLines (modules : List String) : List String :=
  if modules.isEmpty then [""] else modules.map ("import " ++ ·)

/-- The lines of a class, behind the two empty ones that set it off. -/
def setOff (ls : List String) : List String := "" :: "" :: ls

def moduleLines (target : Option String) (interfaces : List Interface) (wrappers : List Wrapper)
    (scope : Option ScopeProvider) : Except GenerationError (List String) := do
  let aliases := Aliases.choose wrappers scope target
  let bodies := wrappers.flatMap fun w => w.methods.filterMap Method.body
  let imports := aliasImports aliases bodies target scope
  let protocols ← interfaces.mapM fun (i : Interface) => i.lines target
  let classes ← wrappers.mapM fun (w : Wrapper) => w.lines target aliases
  return prologue ++ importLines (importedModules target interfaces wrappers) ++
    (if imports.isEmpty then [] else "" :: imports) ++ protocols.flatMap setOff ++ classes.flatMap setOff

def moduleText (target : Option String) (interfaces : List Interface) (wrappers : List Wrapper)
    (scope : Option ScopeProvider) : Except GenerationError String :=
  (moduleLines target interfaces wrappers scope).map fun ls => Text.joinLines ls ++ "\n"

end SyncFacade
