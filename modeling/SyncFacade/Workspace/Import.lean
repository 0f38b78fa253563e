import SyncFacade.Workspace

/-! Importing modules. A module runs when it is first imported, behind its parents; importing it again
gives what is there. Reloading a module runs its statements again over the variables it has. -/
namespace SyncFacade
namespace Workspace

/-- The parent of a dotted name, and the last component. -/
def splitName (name : String) : Option (String × String) :=
  (ScopeProvider.splitAtLastDot name.toList).bind fun (parent, child) =>
    if parent.isEmpty then none else some (String.ofList parent, String.ofList child)

/-- How a module is imported into a workspace. -/
abbrev Importer := Workspace → String → Except ImportFailure Workspace

abbrev Sources := List SourceModule

def find? (sources : Sources) (name : String) : Option SourceModule := sources.find? (·.name = name)

def isPackage (sources : Sources) (name : String) : Bool := (find? sources name).any (·.isPackage)

/-- Register a class through the targets that its statement names. -/
def register (w : Workspace) (module : String) (number : Nat) (className : String)
    (wrapper : Option WrapperMark) (interface : Option InterfaceMark) : Except ImportFailure Workspace := do
  let w ← match wrapper with
    | some m => do
      let t ← w.target? module m.global
      pure { w with registry := w.registry.wrapClass t.module number className m.name m.interface }
    | none => pure w
  match interface with
  | some m => do
    let t ← w.target? module m.global
    pure { w with registry := w.registry.wrapInterface t.module number className m.name }
  | none => pure w

/-- Declare a class of a module, and make it reachable under its qualified name: as a variable of the
module, or in the class around it. -/
def declareClass (w : Workspace) (module : String) (d : ClassDeclaration) : Workspace × Nat :=
  let number := w.classes.classes.size
  let w := { w with classes := w.reachableClasses.introduce { d with module } }
  match (w.classes.find? number).bind fun c => ClassTable.placeOf? c.qualifiedName with
  | some ([], name) => (w.assign module name (.cls number), number)
  | _ => (w, number)

/-- Take a name over from a module that is imported: one of its variables, or a module below it. -/
def importName (sources : Sources) (load : Importer) (w : Workspace) (source name : String) :
    Except ImportFailure (Workspace × Object) := do
  let w ← load w source
  match w.get? source name with
  | some o => pure (w, o)
  | none =>
    let below := source ++ "." ++ name
    let w ←
      if isPackage sources source then
        match load w below with
        | .ok w => pure w
        | .error e => if e = .noModule below none then pure w else throw e
      else pure w
    match w.get? source name with
    | some o => pure (w, o)
    | none => if w.loaded.contains below then pure (w, .module below) else throw (.noName name source)

def runStatement (sources : Sources) (load : Importer) (module : String) (w : Workspace) :
    Statement → Except ImportFailure Workspace
  | .target global target scope =>
    match Target.make target scope with
    | .ok t =>
      .ok ({ w with targets := w.targets.push t }.assign module global (.target w.targets.size))
    | .error e => .error (.registration e)
  | .cls name declare wrapper interface => do
    match (declare (w.names module)).run w.stock with
    | .error missing => throw (.undefined missing)
    | .ok (d, stock) =>
      let (w, number) := { w with stock }.declareClass module d
      return (← w.register module number d.name wrapper interface).assign module name (.cls number)
  | .importFrom source name global => do
    let (w, o) ← importName sources load w source name
    return w.assign module global o
  | .set global v => .ok (w.assign module global (.value v))
  | .sameAs global source =>
    match w.get? module source with
    | some o => .ok (w.assign module global o)
    | none => .error (.undefined source)
  | .raise kind message => .error (.raised kind message)

/-- Run the statements of a module that apply. -/
def runBody (sources : Sources) (load : Importer) (w : Workspace) (m : SourceModule) :
    Except ImportFailure Workspace :=
  m.body.foldlM (fun w (occasion, s) =>
    if occasion.applies w.typeChecking then runStatement sources load m.name w s else pure w) w

/-- Run a module that is imported for the first time. It is there while it runs. -/
def loadFresh (sources : Sources) (load : Importer) (w : Workspace) (name : String) :
    Except ImportFailure Workspace :=
  match find? sources name with
  | none => .error (.noModule name none)
  | some m => runBody sources load { w with loaded := w.loaded.put name {} } m

/-- Import a module by its full name, up to a depth of imports that wait for each other. -/
def importUpTo (sources : Sources) : Nat → Importer
  | 0, _, _ => .error .tooDeep
  | depth + 1, w, name =>
    let load := importUpTo sources depth
    if w.loaded.contains name then .ok w
    else
      match splitName name with
      | none => loadFresh sources load w name
      | some (parent, child) => do
        let w ← load w parent
        if w.loaded.contains name then return w
        if !isPackage sources parent then throw (.noModule name (some parent))
        let w ← loadFresh sources load w name
        return w.assign parent child (.module name)

def longest (names : List String) : Nat := (names.map String.length).foldl max 0

/-- The modules that a module takes names from, and those that the names may be. -/
def SourceModule.mentioned (m : SourceModule) : List String :=
  m.body.filterMap fun (_, s) => match s with
    | .importFrom source name _ => some (source ++ "." ++ name)
    | _ => none

/-- A depth that imports cannot exceed: each module waits once at most, behind no more parents than its
name has characters. -/
def depth (sources : Sources) (name : String) : Nat :=
  (sources.length + 1) * (longest (name :: sources.flatMap SourceModule.mentioned) + 2)

/-- Import a module by its full name. -/
def importModule (sources : Sources) : Importer := fun w name =>
  importUpTo sources (depth sources name) w name

def importNamed (sources : Sources) (w : Workspace) : Option String → Except ImportFailure Workspace
  | none => .error .unnamed
  | some name =>
    if name = "" then .error .emptyName
    else if name.toList.head? = some '.' then .error (.relativeName name)
    else (importModule sources w name).mapError (.ofModule name)

def reload (sources : Sources) (w : Workspace) (name : String) : Except ImportFailure Workspace :=
  match find? sources name with
  | none => .error (.noModule name none)
  | some m => runBody sources (importModule sources) w m

/-- Run modules again while types are checked. -/
def reloadAll (sources : Sources) (w : Workspace) (names : List String) :
    Except ImportFailure Workspace := do
  let w ← names.foldlM (reload sources) { w with typeChecking := true }
  return { w with typeChecking := false }

end Workspace
end SyncFacade
